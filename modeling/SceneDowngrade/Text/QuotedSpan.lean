import SceneDowngrade.Text.Basic

/-!
# Quoted spans

A quoted span is an opening text, a run of characters other than the double quote, and a closing
text that begins with the double quote. A text falls apart into plain characters and the runs of
its spans, taken from the left without overlap.
-/
namespace SceneDowngrade

structure QuotedSpan where
  opening : Text
  closing : Text
  deriving DecidableEq, Repr

/-- A part of a text: a character of its own, or a whole span with this run inside. -/
inductive Piece where
  | plain (c : Char)
  | span (run : Text)
  deriving DecidableEq, Repr

namespace QuotedSpan

/-- The span with `run` inside, as it stands in a text. -/
def around (span : QuotedSpan) (run : Text) : Text := span.opening ++ run ++ span.closing

/-- The run of the span that the text begins with. -/
def run? (span : QuotedSpan) (text : Text) : Option Text :=
  if span.opening.isPrefixOf text then
    let inner := text.drop span.opening.length
    let run := inner.takeWhile (· ≠ '"')
    if span.closing.isPrefixOf (inner.drop run.length) then some run else none
  else none

/-- The pieces of the text after `skip` characters that belong to a span already found. -/
def piecesFrom (span : QuotedSpan) : (skip : Nat) → Text → List Piece
  | _, [] => []
  | skip + 1, _ :: rest => piecesFrom span skip rest
  | 0, c :: rest =>
    match span.run? (c :: rest) with
    | some run => .span run :: piecesFrom span ((span.around run).length - 1) rest
    | none => .plain c :: piecesFrom span 0 rest

def pieces (span : QuotedSpan) (text : Text) : List Piece := span.piecesFrom 0 text

def removeFrom (span : QuotedSpan) (text : Text) : Text :=
  (span.pieces text).flatMap fun
    | .plain c => [c]
    | .span _ => []

def runs (span : QuotedSpan) (text : Text) : List Text :=
  (span.pieces text).filterMap fun
    | .plain _ => none
    | .span run => some run

end QuotedSpan

end SceneDowngrade

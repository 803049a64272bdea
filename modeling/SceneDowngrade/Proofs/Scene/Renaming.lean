import Mathlib.Data.Set.Function
import SceneDowngrade.Proofs.Scene.Attributes
import SceneDowngrade.Proofs.Scene.References
import SceneDowngrade.Proofs.Scene.TwoPasses

/-!
# Scenes under other ids

An id says which resource is meant and nothing else. If every id of a scene gives way to another
one, in the declarations and in the references of property lines, the downgrade has the same lines
and the same table up to the ids in it.
-/
namespace SceneDowngrade.Scene

open Text

namespace ResourceTable

def mapIds (table : ResourceTable) (change : Text → Text) : ResourceTable :=
  ⟨table.entries.map fun entry => (change entry.1, entry.2)⟩

section
variable {change : Text → Text} {ids : Set Text}

@[simp] theorem size_mapIds (table : ResourceTable) : (table.mapIds change).size = table.size := by
  simp [mapIds, size]

theorem ids_mapIds (table : ResourceTable) : (table.mapIds change).ids = table.ids.map change := by
  simp [mapIds, ResourceTable.ids, Function.comp_def]

theorem get?_mapIds (hinj : Set.InjOn change ids) {table : ResourceTable}
    (htable : ∀ id ∈ table.ids, id ∈ ids) {id : Text} (hid : id ∈ ids) :
    (table.mapIds change).get? (change id) = table.get? id := by
  obtain ⟨entries⟩ := table
  induction entries with
  | nil => rfl
  | cons entry entries ih =>
    obtain ⟨first, number⟩ := entry
    have hfirst : first ∈ ids := htable _ (by simp [ResourceTable.ids])
    have hrest := ih fun other hother => htable other (List.mem_cons_of_mem _ hother)
    have hsame : (change id == change first) = (id == first) := by
      rw [Bool.eq_iff_iff, beq_iff_eq, beq_iff_eq]
      exact hinj.eq_iff hid hfirst
    simp only [get?, mapIds, List.map_cons, List.lookup_cons, hsame] at hrest ⊢
    rw [hrest]

theorem assign_mapIds (hinj : Set.InjOn change ids) {table : ResourceTable}
    (htable : ∀ id ∈ table.ids, id ∈ ids) {id : Text} (hid : id ∈ ids) :
    (table.mapIds change).assign (change id) =
      { table.assign id with table := (table.assign id).table.mapIds change } := by
  rw [assign, assign, get?_mapIds hinj htable hid]
  cases table.get? id with
  | none => simp [mapIds, size]
  | some _ => rfl

end

end ResourceTable

def isIdChar (c : Char) : Bool := c.isAlphanum || c = '_'

/-- An id in which no edit of the downgrade finds anything. -/
structure PlainId (id : Text) : Prop where
  chars : ∀ c ∈ id, isIdChar c = true
  texture : ¬ "Texture2D".toList <:+: id

namespace PlainId

variable {id : Text}

theorem notMem (h : PlainId id) {c : Char} (hc : isIdChar c = false) : c ∉ id := by
  intro hm
  rw [h.chars c hm] at hc
  cases hc

theorem bare (h : PlainId id) : Bare id :=
  ⟨h.notMem (by decide), h.notMem (by decide), h.notMem (by decide)⟩

theorem older (h : PlainId id) : id.replaceAll "Texture2D".toList "Texture".toList = id :=
  replaceAll_of_not_isInfix h.texture

theorem not_isInfix (h : PlainId id) {part : Text} (hspace : ' ' ∈ part) : ¬ part <:+: id :=
  not_isInfix_of_notMem hspace (h.notMem (by decide))

theorem regular (h : PlainId id) : Attribute.Regular ⟨idName, id⟩ := by
  have hname : ∀ c ∈ idName, isNameChar c = true := by decide
  exact ⟨hname, h.notMem (by decide), h.not_isInfix (by simp), h.not_isInfix (by simp)⟩

end PlainId

/-- The line declares `id`, attribute by attribute. -/
def DeclaredOn (raw id : Text) : Prop :=
  ∃ attributes, raw.trim = declarationText attributes ∧ Declares attributes id

def declaredIds (lines : List Text) : Set Text := {id | ∃ raw ∈ lines, DeclaredOn raw id}

/-- Declarations are rows of attributes, and property lines refer to declared ids and nothing else.
-/
structure Orderly (lines : List Text) : Prop where
  declarations : ∀ raw ∈ lines, LineKind.ofTrimmed raw.trim = .extResource → ∃ id, DeclaredOn raw id
  references : ∀ above raw below, lines = above ++ raw :: below →
    LineKind.ofTrimmed raw.trim = .property →
      ∀ front back, raw.trim = front ++ quotedReference.opening ++ back →
        ∃ id ∈ declaredIds above, id ++ quotedReference.closing <+: back

/-- Different plain ids in the place of different plain ids. -/
structure Renaming (change : Text → Text) (ids : Set Text) : Prop where
  injOn : Set.InjOn change ids
  plain : ∀ id ∈ ids, PlainId id ∧ PlainId (change id)

/-- The line with other ids in its declaration or its references. -/
def renameLine (change : Text → Text) (raw : Text) : Text :=
  match LineKind.ofTrimmed raw.trim with
  | .extResource => idAttribute.rename change raw
  | .property => quotedReference.rename change raw
  | .node | .blank => raw

section
variable {change : Text → Text} {raw id : Text}

theorem renameLine_of_declaration (h : LineKind.ofTrimmed raw.trim = .extResource) :
    renameLine change raw = idAttribute.rename change raw := by
  rw [renameLine, h]

theorem renameLine_of_property (h : LineKind.ofTrimmed raw.trim = .property) :
    renameLine change raw = quotedReference.rename change raw := by
  rw [renameLine, h]

theorem ofTrimmed_rename {span : QuotedSpan} (h : span.Delimited) (text : Text) :
    LineKind.ofTrimmed (span.rename change text) = LineKind.ofTrimmed text := by
  have hmarker : ∀ marker : Text, '"' ∉ marker →
      marker.isPrefixOf (span.rename change text) = marker.isPrefixOf text := by
    intro marker hquote
    rw [Bool.eq_iff_iff, List.isPrefixOf_iff_prefix, List.isPrefixOf_iff_prefix,
      QuotedSpan.prefix_rename_iff h hquote]
  have hempty : (span.rename change text).isEmpty = text.isEmpty := by
    rw [Bool.eq_iff_iff, List.isEmpty_iff, List.isEmpty_iff, QuotedSpan.rename_eq_nil_iff h]
  rw [LineKind.ofTrimmed, LineKind.ofTrimmed, hmarker _ (by decide), hmarker _ (by decide), hempty]

theorem DeclaredOn.kind (h : DeclaredOn raw id) : LineKind.ofTrimmed raw.trim = .extResource := by
  obtain ⟨attributes, htrim, -⟩ := h
  have hmarker : extResourceMarker.isPrefixOf raw.trim = true := by
    rw [htrim]
    exact List.isPrefixOf_iff_prefix.2 (List.prefix_append _ _)
  rw [LineKind.ofTrimmed, if_pos hmarker]

/-- No `id` begins in the blank characters before the bracket. -/
theorem DeclaredOn.not_startsIn (h : DeclaredOn raw id) {front : Text} (hf : front.Blank)
    (back : Text) : ¬ idAttribute.opening.StartsIn front (raw.trim ++ back) := by
  obtain ⟨attributes, htrim, -⟩ := h
  rintro ⟨tail, hne, hs, hp⟩
  obtain ⟨c, tail, rfl⟩ := List.exists_cons_of_ne_nil hne
  have hopening : idAttribute.opening = ' ' :: 'i' :: "d=\"".toList := by decide
  have hbracket : raw.trim = '[' :: ("ext_resource".toList ++ attributesText attributes) := by
    rw [htrim]
    rfl
  rw [hopening, List.cons_append, List.cons_prefix_cons] at hp
  cases tail with
  | nil => simp [hbracket, List.cons_prefix_cons] at hp
  | cons d tail =>
    obtain ⟨rfl, -⟩ := List.cons_prefix_cons.1 (hp.2 : 'i' :: _ <+: d :: _)
    exact absurd (hf 'i' (hs.mem (by simp))) (by decide)

theorem not_startsIn_reference {front : Text} (hf : front.Blank) (back : Text) :
    ¬ quotedReference.opening.StartsIn front back := by
  intro hs
  exact absurd (hf 'E' (hs.head_mem (by decide))) (by decide)

theorem DeclaredOn.trim_rename (h : DeclaredOn raw id) :
    (idAttribute.rename change raw).trim = idAttribute.rename change raw.trim :=
  QuotedSpan.trim_rename idAttribute_delimited (by decide) fun _ back hf => h.not_startsIn hf back

theorem trim_rename_reference (raw : Text) :
    (quotedReference.rename change raw).trim = quotedReference.rename change raw.trim :=
  QuotedSpan.trim_rename quotedReference_delimited (by decide) fun _ _ hf =>
    not_startsIn_reference hf _

theorem DeclaredOn.runs_eq (h : DeclaredOn raw id) : idAttribute.runs raw = [id] := by
  have hruns := QuotedSpan.runs_eq_runs_trim idAttribute_delimited (by decide)
    fun _ back hf => h.not_startsIn hf back
  obtain ⟨attributes, htrim, hdeclares⟩ := h
  rw [hruns, htrim, hdeclares.runs_eq]

theorem DeclaredOn.unique (h : DeclaredOn raw id) {other : Text} (ho : DeclaredOn raw other) :
    id = other := by
  have hruns := h.runs_eq.symm.trans ho.runs_eq
  simpa using hruns

def Attribute.renamed (change : Text → Text) (attr : Attribute) : Attribute :=
  if attr.name = idName then { attr with value := change attr.value } else attr

@[simp] theorem Attribute.name_renamed (attr : Attribute) :
    (attr.renamed change).name = attr.name := by
  by_cases h : attr.name = idName <;> simp [renamed, h]

theorem Attribute.numbered_renamed (number : Nat) (attr : Attribute) :
    (attr.renamed change).older.numbered number = attr.older.numbered number := by
  by_cases h : attr.name = idName
  · simp [numbered, older, h]
  · simp [renamed, h]

theorem Declares.rename {attributes : List Attribute} (h : Declares attributes id)
    (hnew : Attribute.Regular ⟨idName, change id⟩) :
    Declares (attributes.map (.renamed change)) (change id) := by
  constructor
  · intro attr hattr
    obtain ⟨source, hsource, rfl⟩ := List.mem_map.1 hattr
    by_cases hname : source.name = idName
    · rw [Attribute.renamed, if_pos hname, h.value_eq hsource hname, hname]
      exact hnew
    · rw [Attribute.renamed, if_neg hname]
      exact h.regular source hsource
  · have hsame : ((fun attr : Attribute => decide (attr.name = idName)) ∘ .renamed change) =
        fun attr => decide (attr.name = idName) := by
      funext attr
      simp
    rw [List.filter_map, hsame, h.ids]
    simp [Attribute.renamed]

theorem Declares.rename_declarationText {attributes : List Attribute} (h : Declares attributes id) :
    idAttribute.rename change (declarationText attributes) =
      declarationText (attributes.map (.renamed change)) := by
  have hspan : idAttribute = quotedAttribute idName := rfl
  have htext : ∀ attr : Attribute, (attr.renamed change).text =
      if attr.name = idName then (quotedAttribute idName).around (change attr.value)
      else attr.text := by
    intro attr
    by_cases hname : attr.name = idName
    · simp [Attribute.text, Attribute.renamed, hname]
    · simp [Attribute.text, Attribute.renamed, hname]
  rw [QuotedSpan.rename, hspan, declarationText,
    QuotedSpan.substitute_append_of_not_startsIn (not_startsIn_marker _),
    substitute_attributesText (by decide) fun attr hattr =>
      ⟨h.regular attr hattr, (h.regular attr hattr).id⟩,
    declarationText, attributesText, List.flatMap_map]
  simp only [htext]

theorem DeclaredOn.rename (h : DeclaredOn raw id) (hnew : PlainId (change id)) :
    DeclaredOn (renameLine change raw) (change id) := by
  rw [renameLine_of_declaration h.kind]
  have ⟨attributes, hraw, hdeclares⟩ := h
  refine ⟨attributes.map (.renamed change), ?_, hdeclares.rename hnew.regular⟩
  rw [h.trim_rename, hraw, hdeclares.rename_declarationText]

/-- A declaration is known by its id with the older texture type. -/
theorem DeclaredOn.captured (h : DeclaredOn raw id) :
    Scene.capturedId? raw = some (olderValue id) := by
  rw [Scene.capturedId?, h.kind]
  obtain ⟨attributes, hraw, hdeclares⟩ := h
  simp only [hraw, hdeclares.declaredId?_eq, olderValue]

theorem DeclaredOn.capturedId? (h : DeclaredOn raw id) (hid : PlainId id) :
    capturedId? raw = some id := by
  rw [h.captured, olderValue, hid.older]

end

/-- What a line has to offer when `table` holds the declarations above it. -/
structure Fits (ids : Set Text) (table : ResourceTable) (raw : Text) : Prop where
  declares : LineKind.ofTrimmed raw.trim = .extResource → ∃ id ∈ ids, DeclaredOn raw id
  closed : LineKind.ofTrimmed raw.trim = .property → quotedReference.Closed raw.trim
  known : LineKind.ofTrimmed raw.trim = .property →
    ∀ run ∈ quotedReference.runs raw.trim, run ∈ table.ids

section
variable {change : Text → Text} {ids : Set Text} {table : ResourceTable} {raw : Text}

theorem trim_renameLine_of_declaration (h : Fits ids table raw)
    (hkind : LineKind.ofTrimmed raw.trim = .extResource) :
    (renameLine change raw).trim = idAttribute.rename change raw.trim := by
  obtain ⟨id, -, hid⟩ := h.declares hkind
  rw [renameLine_of_declaration hkind, hid.trim_rename]

theorem trim_renameLine_of_property (hkind : LineKind.ofTrimmed raw.trim = .property) :
    (renameLine change raw).trim = quotedReference.rename change raw.trim := by
  rw [renameLine_of_property hkind, trim_rename_reference]

theorem kind_renameLine (h : Fits ids table raw) :
    LineKind.ofTrimmed (renameLine change raw).trim = LineKind.ofTrimmed raw.trim := by
  cases hkind : LineKind.ofTrimmed raw.trim with
  | extResource =>
    rw [trim_renameLine_of_declaration h hkind, ofTrimmed_rename idAttribute_delimited, hkind]
  | property =>
    rw [trim_renameLine_of_property hkind, ofTrimmed_rename quotedReference_delimited, hkind]
  | node => rw [renameLine, hkind, hkind]
  | blank => rw [renameLine, hkind, hkind]

/-- The same rules look for their presets on both lines with the same success. -/
def SamePresets (above other : Text) : Prop :=
  ∀ rule ∈ anchorRules, rule.token.occursIn other = rule.token.occursIn above

theorem SamePresets.rulesFor_eq {above other : Text} (h : SamePresets above other) (line : Text) :
    rulesFor other line = rulesFor above line :=
  List.filter_congr fun rule hr => by rw [AnchorRule.applies, AnchorRule.applies, h rule hr]

theorem occursIn_rename {span : QuotedSpan} (h : span.Delimited)
    (hruns : ∀ run ∈ span.runs raw, PlainId run ∧ PlainId (change run)) :
    SamePresets raw (span.rename change raw) := by
  have htokens : ∀ rule ∈ anchorRules, '"' ∉ rule.token ∧ ' ' ∈ rule.token := by decide
  intro rule hr
  obtain ⟨hquote, hspace⟩ := htokens rule hr
  have hnone : ∀ run ∈ span.runs raw, ¬ rule.token <:+: run ∧ ¬ rule.token <:+: change run := by
    intro run hrun
    obtain ⟨hold, hnew⟩ := hruns run hrun
    exact ⟨hold.not_isInfix hspace, hnew.not_isInfix hspace⟩
  rw [Bool.eq_iff_iff, occursIn_iff_infix, occursIn_iff_infix,
    QuotedSpan.infix_rename_iff h hquote hnone]

theorem samePresets_renameLine (hchange : Renaming change ids) (htable : ∀ id ∈ table.ids, id ∈ ids)
    (h : Fits ids table raw) : SamePresets raw (renameLine change raw) := by
  cases hkind : LineKind.ofTrimmed raw.trim with
  | extResource =>
    obtain ⟨id, hmem, hid⟩ := h.declares hkind
    rw [renameLine_of_declaration hkind]
    refine occursIn_rename idAttribute_delimited fun run hrun => hchange.plain run ?_
    rw [hid.runs_eq, List.mem_singleton] at hrun
    exact hrun ▸ hmem
  | property =>
    have hruns := QuotedSpan.runs_eq_runs_trim quotedReference_delimited (by decide)
      fun _ back (hf : Blank _) => not_startsIn_reference hf (raw.trim ++ back)
    rw [renameLine_of_property hkind]
    refine occursIn_rename quotedReference_delimited fun run hrun => hchange.plain run ?_
    exact htable run (h.known hkind run (hruns ▸ hrun))
  | node => intro _ _; rw [renameLine, hkind]
  | blank => intro _ _; rw [renameLine, hkind]

theorem capturedId?_renameLine (hchange : Renaming change ids) (h : Fits ids table raw) :
    capturedId? (renameLine change raw) = (capturedId? raw).map change := by
  by_cases hkind : LineKind.ofTrimmed raw.trim = .extResource
  · obtain ⟨id, hmem, hid⟩ := h.declares hkind
    obtain ⟨hold, hnew⟩ := hchange.plain id hmem
    rw [hid.capturedId? hold, (hid.rename hnew).capturedId? hnew, Option.map_some]
  · have hnone : ∀ other, LineKind.ofTrimmed other.trim ≠ .extResource →
        capturedId? other = none := by
      intro other hother
      rw [capturedId?]
      cases hk : LineKind.ofTrimmed other.trim <;> simp_all
    rw [hnone raw hkind, hnone _ ((kind_renameLine h).trans_ne hkind), Option.map_none]

theorem captured_mem (hchange : Renaming change ids) (h : Fits ids table raw) {id : Text}
    (hid : capturedId? raw = some id) : id ∈ ids := by
  by_cases hkind : LineKind.ofTrimmed raw.trim = .extResource
  · obtain ⟨other, hmem, hother⟩ := h.declares hkind
    rw [hother.capturedId? (hchange.plain other hmem).1, Option.some_inj] at hid
    exact hid ▸ hmem
  · rw [capturedId?] at hid
    cases hk : LineKind.ofTrimmed raw.trim <;> simp_all

theorem afterLine_mapIds (hchange : Renaming change ids) (htable : ∀ id ∈ table.ids, id ∈ ids)
    (h : Fits ids table raw) :
    (table.mapIds change).afterLine (renameLine change raw) =
      (table.afterLine raw).mapIds change := by
  rw [ResourceTable.afterLine_eq, ResourceTable.afterLine_eq, capturedId?_renameLine hchange h]
  cases hid : capturedId? raw with
  | none => rfl
  | some id =>
    have hmem := captured_mem hchange h hid
    rw [Option.map_some, Option.map_some, Option.map_some, Option.getD_some, Option.getD_some,
      ResourceTable.assign_mapIds hchange.injOn htable hmem]

theorem numberReferences_rename (hchange : Renaming change ids)
    (htable : ∀ id ∈ table.ids, id ∈ ids) (h : Fits ids table raw)
    (hkind : LineKind.ofTrimmed raw.trim = .property) :
    numberReferences (table.mapIds change) (quotedReference.rename change raw.trim) =
      numberReferences table raw.trim := by
  have hbare : ∀ id ∈ table.ids, Bare id := fun id hid => (hchange.plain id (htable id hid)).1.bare
  have hbare' : ∀ id ∈ (table.mapIds change).ids, Bare id := by
    intro id hid
    rw [ResourceTable.ids_mapIds] at hid
    obtain ⟨source, hsource, rfl⟩ := List.mem_map.1 hid
    exact (hchange.plain source (htable source hsource)).2.bare
  have hruns : ∀ run ∈ quotedReference.runs raw.trim, run ∈ ids := fun run hrun =>
    htable run (h.known hkind run hrun)
  rw [numberReferences_eq_substitute hbare, numberReferences_eq_substitute hbare',
    QuotedSpan.substitute_rename quotedReference_delimited (by decide) (h.closed hkind)
      fun run hrun => (hchange.plain run (hruns run hrun)).2.bare.1]
  refine QuotedSpan.substitute_congr quotedReference_delimited fun run hrun => ?_
  obtain ⟨number, hnumber⟩ : ∃ number, table.get? run = some number := by
    by_contra hnone
    have hid := h.known hkind run hrun
    have hget : table.get? run = none := by
      simpa [Option.eq_none_iff_forall_ne_some] using hnone
    exact ResourceTable.get?_eq_none_iff.1 hget hid
  have hget := ResourceTable.get?_mapIds hchange.injOn htable (hruns run hrun)
  simp only [numberedBy, hget, hnumber]

theorem declare_line_rename (hchange : Renaming change ids) (htable : ∀ id ∈ table.ids, id ∈ ids)
    (h : Fits ids table raw) (hkind : LineKind.ofTrimmed raw.trim = .extResource) :
    ((table.mapIds change).declare (idAttribute.rename change raw.trim)).line =
      (table.declare raw.trim).line := by
  obtain ⟨id, hmem, attributes, hraw, hdeclares⟩ := h.declares hkind
  obtain ⟨hold, hnew⟩ := hchange.plain id hmem
  rw [hraw, hdeclares.rename_declarationText, (hdeclares.rename hnew.regular).declare_line,
    hdeclares.declare_line, hold.older, hnew.older,
    ResourceTable.assign_mapIds hchange.injOn htable hmem, flatMap_olderAttributes,
    flatMap_olderAttributes, List.flatMap_map]
  simp only [Attribute.name_renamed, Attribute.numbered_renamed]

/-- Two drafts that add the same to the output and set off the same rules. -/
structure Draft.Alike (draft other : Draft) : Prop where
  kind : other.kind = draft.kind
  text : other.text = draft.text
  rules : other.rules = draft.rules

theorem SamePresets.alike {draft other : Draft} (h : SamePresets draft.above other.above)
    (hkind : other.kind = draft.kind) (htext : other.text = draft.text) : draft.Alike other := by
  refine ⟨hkind, htext, ?_⟩
  rw [Draft.rules, Draft.rules, hkind, htext, h.rulesFor_eq]

theorem text_ofLine_renameLine (hchange : Renaming change ids)
    (htable : ∀ id ∈ table.ids, id ∈ ids) (h : Fits ids table raw) (above other : Text) :
    (Draft.ofLine (table.mapIds change) other (renameLine change raw)).text =
      (Draft.ofLine table above raw).text := by
  have hsame : LineKind.ofTrimmed (renameLine change raw).trim = LineKind.ofTrimmed raw.trim :=
    kind_renameLine h
  rw [Draft.ofLine, Draft.ofLine, hsame]
  cases hkind : LineKind.ofTrimmed raw.trim with
  | extResource =>
    simp only [trim_renameLine_of_declaration h hkind, declare_line_rename hchange htable h hkind]
  | property =>
    simp only [trim_renameLine_of_property hkind, numberReferences_rename hchange htable h hkind]
  | node =>
    have hline : renameLine change raw = raw := by rw [renameLine, hkind]
    simp only [hline]
  | blank => simp only

theorem ofLine_alike (hchange : Renaming change ids) (htable : ∀ id ∈ table.ids, id ∈ ids)
    (h : Fits ids table raw) {above other : Text} (habove : SamePresets above other) :
    Draft.Alike (Draft.ofLine table above raw)
      (Draft.ofLine (table.mapIds change) other (renameLine change raw)) := by
  have hpresets : SamePresets (Draft.ofLine table above raw).above
      (Draft.ofLine (table.mapIds change) other (renameLine change raw)).above := by
    rwa [Draft.above_ofLine, Draft.above_ofLine]
  refine hpresets.alike ?_ (text_ofLine_renameLine hchange htable h above other)
  rw [Draft.kind_ofLine, Draft.kind_ofLine, kind_renameLine h]

theorem ids_afterLine (hchange : Renaming change ids) (htable : ∀ id ∈ table.ids, id ∈ ids)
    (h : Fits ids table raw) : ∀ id ∈ (table.afterLine raw).ids, id ∈ ids := by
  rw [ResourceTable.afterLine_eq]
  cases hcaptured : capturedId? raw with
  | none => exact htable
  | some other =>
    intro id hid
    rw [Option.map_some, Option.getD_some, ResourceTable.mem_ids_assign_iff] at hid
    rcases hid with hid | rfl
    · exact htable id hid
    · exact captured_mem hchange h hcaptured

theorem firstPass_alike (hchange : Renaming change ids) {lines : List Text}
    (htable : ∀ id ∈ table.ids, id ∈ ids)
    (h : ∀ above raw below, lines = above ++ raw :: below → Fits ids (table.afterLines above) raw)
    {above other : Text} (habove : SamePresets above other) :
    List.Forall₂ Draft.Alike (firstPass table above lines)
        (firstPass (table.mapIds change) other (lines.map (renameLine change))) ∧
      (table.mapIds change).afterLines (lines.map (renameLine change)) =
        (table.afterLines lines).mapIds change := by
  induction lines generalizing table above other with
  | nil => exact ⟨.nil, rfl⟩
  | cons raw lines ih =>
    have hraw : Fits ids table raw := h [] raw lines rfl
    have hlines : ∀ above next below, lines = above ++ next :: below →
        Fits ids ((table.afterLine raw).afterLines above) next := by
      rintro above next below rfl
      exact h (raw :: above) next below rfl
    obtain ⟨hdrafts, htables⟩ := ih (ids_afterLine hchange htable hraw) hlines
      (samePresets_renameLine hchange htable hraw)
    rw [← afterLine_mapIds hchange htable hraw] at hdrafts htables
    exact ⟨.cons (ofLine_alike hchange htable hraw habove) hdrafts, htables⟩

end

section
variable {drafts others : List Draft}

theorem firstRules_alike (h : List.Forall₂ Draft.Alike drafts others) :
    firstRules others = firstRules drafts := by
  cases h with
  | nil => rfl
  | cons hdraft _ => exact hdraft.rules

theorem secondPass_alike (h : List.Forall₂ Draft.Alike drafts others) :
    secondPass others = secondPass drafts := by
  induction h with
  | nil => rfl
  | cons hdraft hrest ih =>
    rw [secondPass_cons, secondPass_cons, ih, firstRules_alike hrest]
    simp only [Draft.settled, Draft.renamed, hdraft.kind, hdraft.text, hdraft.rules]

theorem countP_alike (h : List.Forall₂ Draft.Alike drafts others) {test : Draft → Bool}
    (htest : ∀ draft other, Draft.Alike draft other → test other = test draft) :
    others.countP test = drafts.countP test := by
  induction h with
  | nil => rfl
  | cons hdraft _ ih => rw [List.countP_cons, List.countP_cons, ih, htest _ _ hdraft]

end

/-- Each line of an orderly scene finds the ids that it refers to in the table. -/
theorem Orderly.fits {change : Text → Text} {lines : List Text} (h : Orderly lines)
    (hchange : Renaming change (declaredIds lines)) (above : List Text) (raw : Text)
    (below : List Text) (he : lines = above ++ raw :: below) :
    Fits (declaredIds lines) (ResourceTable.afterLines {} above) raw := by
  have hraw : raw ∈ lines := by simp [he]
  have habove : ∀ id ∈ declaredIds above, id ∈ declaredIds lines := by
    rintro id ⟨other, hother, hid⟩
    exact ⟨other, by simp [he, hother], hid⟩
  have hquote : ∀ id ∈ declaredIds above, '"' ∉ id := fun id hid =>
    (hchange.plain id (habove id hid)).1.bare.1
  constructor
  · intro hkind
    obtain ⟨id, hid⟩ := h.declarations raw hraw hkind
    exact ⟨id, ⟨raw, hraw, hid⟩, hid⟩
  · intro hkind front back hback
    obtain ⟨id, hid, hclosing⟩ := h.references above raw below he hkind front back hback
    exact ⟨id, hquote id hid, hclosing⟩
  · intro hkind run hrun
    have hrunquote := QuotedSpan.quote_notMem_of_mem_runs quotedReference_delimited hrun
    obtain ⟨front, back, hback⟩ := QuotedSpan.exists_of_mem_runs quotedReference_delimited hrun
    have hsplit : raw.trim =
        front ++ quotedReference.opening ++ (run ++ quotedReference.closing ++ back) := by
      simp [hback, QuotedSpan.around]
    obtain ⟨id, hid, hclosing⟩ := h.references above raw below he hkind _ _ hsplit
    have hsame : id = run := by
      have hquoted : quotedReference.closing = ['"', ')'] := by decide
      rw [hquoted, List.append_assoc] at hclosing
      exact ((append_cons_prefix_iff (hquote id hid) hrunquote).1 hclosing).1
    obtain ⟨other, hother, hdeclared⟩ := hid
    have hplain := (hchange.plain id (habove id ⟨other, hother, hdeclared⟩)).1
    rw [ResourceTable.mem_ids_afterLines_iff]
    exact .inr ⟨other, hother, hsame ▸ hdeclared.capturedId? hplain⟩

/-- Other ids, one for one, change nothing but the ids in the table. -/
theorem downgradeLines_renamed {change : Text → Text} {lines : List Text} (h : Orderly lines)
    (hchange : Renaming change (declaredIds lines)) (header : Text) :
    ∃ scene renamed, downgradeLines (header :: lines) = .ok scene ∧
      downgradeLines (header :: lines.map (renameLine change)) = .ok renamed ∧
      renamed.lines = scene.lines ∧ renamed.stats = scene.stats ∧
      renamed.table = scene.table.mapIds change := by
  have hnone : ∀ id ∈ ResourceTable.ids {}, id ∈ declaredIds lines := by
    simp [ResourceTable.ids]
  have hheader : SamePresets header header := fun _ _ => rfl
  obtain ⟨hdrafts, htables⟩ := firstPass_alike hchange hnone (h.fits hchange) hheader
  have hempty : ResourceTable.mapIds {} change = {} := rfl
  rw [hempty] at hdrafts htables
  obtain ⟨hlines, htable, hstats⟩ := Pass.start_run_finish header lines
  obtain ⟨hlines', htable', hstats'⟩ :=
    Pass.start_run_finish header (lines.map (renameLine change))
  refine ⟨_, _, rfl, rfl, ?_, ?_, ?_⟩
  · rw [hlines, hlines', twoPassLines, twoPassLines, firstRules_alike hdrafts,
      secondPass_alike hdrafts]
  · rw [hstats, hstats', twoPassStats, twoPassStats, htables, ResourceTable.size_mapIds]
    congr 1
    · exact countP_alike hdrafts fun _ _ halike => by rw [halike.kind]
    · exact countP_alike hdrafts fun _ _ halike => by rw [halike.rules]
    · exact countP_alike hdrafts fun _ _ halike => by rw [halike.kind]
  · rw [htable, htable', htables]

def iconDeclaration : Text := "[ext_resource type=\"Texture2D\" id=\"1\"]".toList

def iconProperty : Text := "texture = ExtResource(\"1\")".toList

theorem kind_icon : LineKind.ofTrimmed iconDeclaration.trim = .extResource ∧
    LineKind.ofTrimmed iconProperty.trim = .property := by decide

theorem declaredOn_iconDeclaration : DeclaredOn iconDeclaration "1".toList :=
  ⟨[⟨"type".toList, "Texture2D".toList⟩, ⟨idName, "1".toList⟩], by decide, by decide⟩

theorem mem_declaredIds_icon {id : Text} :
    id ∈ declaredIds [iconDeclaration, iconProperty] ↔ id = "1".toList := by
  constructor
  · rintro ⟨raw, hraw, hid⟩
    simp only [List.mem_cons, List.not_mem_nil, or_false] at hraw
    rcases hraw with rfl | rfl
    · exact hid.unique declaredOn_iconDeclaration
    · cases kind_icon.2.symm.trans hid.kind
  · rintro rfl
    exact ⟨iconDeclaration, by simp, declaredOn_iconDeclaration⟩

theorem orderly_icon : Orderly [iconDeclaration, iconProperty] := by
  constructor
  · intro raw hraw hkind
    simp only [List.mem_cons, List.not_mem_nil, or_false] at hraw
    rcases hraw with rfl | rfl
    · exact ⟨_, declaredOn_iconDeclaration⟩
    · cases kind_icon.2.symm.trans hkind
  · intro above raw below he hkind front back hback
    have hall : ∀ back ∈ iconProperty.trim.tails, quotedReference.opening ++ back <:+
        iconProperty.trim → "1".toList ++ quotedReference.closing <+: back := by
      decide +kernel
    rcases above with _ | ⟨first, above⟩
    · obtain ⟨rfl, -⟩ := List.cons_eq_cons.1 he
      cases kind_icon.1.symm.trans hkind
    · obtain ⟨rfl, hrest⟩ := List.cons_eq_cons.1 he
      rcases above with _ | ⟨second, above⟩
      · obtain ⟨rfl, -⟩ := List.cons_eq_cons.1 hrest
        refine ⟨"1".toList, ⟨iconDeclaration, by simp, declaredOn_iconDeclaration⟩, ?_⟩
        refine hall back ((List.mem_tails _ _).2 ⟨front ++ quotedReference.opening, ?_⟩) ⟨front, ?_⟩
        · rw [hback]
        · rw [hback, List.append_assoc]
      · simp at hrest

theorem renaming_icon :
    Renaming (fun id => 'z' :: id) (declaredIds [iconDeclaration, iconProperty]) := by
  constructor
  · intro id _ other _ h
    exact (List.cons_eq_cons.1 h).2
  · intro id hid
    rw [mem_declaredIds_icon] at hid
    subst hid
    exact ⟨⟨by decide, by decide⟩, ⟨by decide, by decide⟩⟩

theorem downgradeLines_renamed_icon :
    Orderly [iconDeclaration, iconProperty] ∧
      Renaming (fun id => 'z' :: id) (declaredIds [iconDeclaration, iconProperty]) ∧
      ∃ scene renamed, downgradeLines ["[gd_scene]".toList, iconDeclaration, iconProperty] =
          .ok scene ∧
        downgradeLines ["[gd_scene]".toList, "[ext_resource type=\"Texture2D\" id=\"z1\"]".toList,
          "texture = ExtResource(\"z1\")".toList] = .ok renamed ∧
        renamed.lines = scene.lines ∧ renamed.stats = scene.stats ∧
        renamed.table = scene.table.mapIds fun id => 'z' :: id := by
  refine ⟨orderly_icon, renaming_icon, ?_⟩
  have hrenamed : [iconDeclaration, iconProperty].map (renameLine fun id => 'z' :: id) =
      ["[ext_resource type=\"Texture2D\" id=\"z1\"]".toList,
        "texture = ExtResource(\"z1\")".toList] := by decide +kernel
  have hsame := downgradeLines_renamed orderly_icon renaming_icon "[gd_scene]".toList
  rwa [hrenamed] at hsame

end SceneDowngrade.Scene

import SceneDowngrade.Files.Growth
import SceneDowngrade.Main
import SceneDowngrade.Proofs.Text.Occurrence
import SceneDowngrade.Proofs.Text.Replacement
import SceneDowngrade.Proofs.Text.ReplacementOrder
import SceneDowngrade.Proofs.Scene.AnchorRules
import SceneDowngrade.Proofs.Scene.RuleOrder
import SceneDowngrade.Proofs.Scene.TwoPasses
import SceneDowngrade.Proofs.Scene.LineKinds
import SceneDowngrade.Proofs.Scene.Fields
import SceneDowngrade.Proofs.Scene.DeclaredRows
import SceneDowngrade.Proofs.Scene.DeclaredFields
import SceneDowngrade.Proofs.Scene.HeaderFields
import SceneDowngrade.Proofs.Scene.Paths
import SceneDowngrade.Proofs.Scene.Ranks
import SceneDowngrade.Proofs.Scene.Spacing
import SceneDowngrade.Proofs.Text.Trim
import SceneDowngrade.Proofs.Text.Lines
import SceneDowngrade.Proofs.Text.LineScan
import SceneDowngrade.Proofs.Scene.References
import SceneDowngrade.Proofs.Scene.ReferenceOrder
import SceneDowngrade.Proofs.Scene.Edits
import SceneDowngrade.Proofs.Scene.Resolution
import SceneDowngrade.Proofs.Files.Walks
import SceneDowngrade.Proofs.Files.Writing
import SceneDowngrade.Proofs.Files.Copies
import SceneDowngrade.Proofs.Conversion.SourceSafety
import SceneDowngrade.Proofs.Conversion.Failures
import SceneDowngrade.Proofs.Conversion.Successes
import SceneDowngrade.Proofs.Scene.Attributes
import SceneDowngrade.Proofs.Scene.Renaming
import SceneDowngrade.Proofs.Scene.WrittenIds
import SceneDowngrade.Proofs.Scene.Cuts
import SceneDowngrade.Proofs.Scene.Indentation
import SceneDowngrade.Proofs.Scene.Gaps
import SceneDowngrade.Proofs.Scene.OlderScenes
import SceneDowngrade.Proofs.Command.Runs
import SceneDowngrade.Proofs.Command.Endings
import SceneDowngrade.Proofs.Scene.NewerNames
import SceneDowngrade.Proofs.Scene.RenameOrder
import SceneDowngrade.Proofs.Scene.Accounts
import SceneDowngrade.Proofs.Scene.HeldLine
import SceneDowngrade.Proofs.Settings.ByName

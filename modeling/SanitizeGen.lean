import SanitizeGen.Build.Generate
import SanitizeGen.Build.RootTask
import SanitizeGen.Demo.Accounts
import SanitizeGen.Demo.Vault
import SanitizeGen.Proofs.PassRun
import SanitizeGen.Proofs.ReleaseOutput
import SanitizeGen.Proofs.WordText
import SanitizeGen.Proofs.LexedText
import SanitizeGen.Proofs.Printing
import SanitizeGen.Proofs.BodyMeaning
import SanitizeGen.Proofs.ChildPaths
import SanitizeGen.Proofs.TreeFrame
import SanitizeGen.Proofs.Installing
import SanitizeGen.Proofs.GenerateSuccess
import SanitizeGen.Proofs.GenerateFailure
import SanitizeGen.Proofs.ConditionMeaning
import SanitizeGen.Proofs.ModulePaths
import SanitizeGen.Proofs.CrateScan
import SanitizeGen.Proofs.SkippedModules
import SanitizeGen.Proofs.PathComponents
import SanitizeGen.Proofs.ModuleFiles
import SanitizeGen.Proofs.InlinedCrate
import SanitizeGen.Proofs.OptionLists
import SanitizeGen.Proofs.FieldFormats
import SanitizeGen.Proofs.MarkerFlags
import SanitizeGen.Proofs.CheckedItem
import SanitizeGen.Proofs.DirectoryPaths
import SanitizeGen.Proofs.ScanDepth
import SanitizeGen.Proofs.ScanProgress
import SanitizeGen.Proofs.ScanAgreement
import SanitizeGen.Proofs.Regeneration
import SanitizeGen.Proofs.PrintedFiles
import SanitizeGen.Proofs.OutputPlaces
import SanitizeGen.Proofs.StagingSessions
import SanitizeGen.Proofs.Transactions
import SanitizeGen.Proofs.SharedStaging
import SanitizeGen.Proofs.RegisteredFunctions
import SanitizeGen.Proofs.EmittedLines
import SanitizeGen.Proofs.TestOnlyItems
import SanitizeGen.Proofs.EditedMarkers
import SanitizeGen.Proofs.EditedOutputs
import SanitizeGen.Proofs.SourceOrder
import SanitizeGen.Proofs.ModuleForms
import SanitizeGen.Proofs.NamedModules
import SanitizeGen.Proofs.FieldBounds
import SanitizeGen.Proofs.NamespaceText
import SanitizeGen.Proofs.NamespacePaths
import SanitizeGen.Proofs.TestOnlyFields
import SanitizeGen.Proofs.FailedStaging
import SanitizeGen.Proofs.TagGrammar
import SanitizeGen.Proofs.PassReaders
import SanitizeGen.Proofs.QualifiedNames

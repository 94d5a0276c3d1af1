import ApiTypings.Main
import ApiTypings.Proofs.Acceptance
import ApiTypings.Proofs.CallArguments
import ApiTypings.Proofs.CallOrigins
import ApiTypings.Proofs.CodeEffect
import ApiTypings.Proofs.CommentBlanks
import ApiTypings.Proofs.CommentBlocks
import ApiTypings.Proofs.CommentEnds
import ApiTypings.Proofs.CommentLines
import ApiTypings.Proofs.CommentWidth
import ApiTypings.Proofs.CommentWords
import ApiTypings.Proofs.CompilerSettings
import ApiTypings.Proofs.DeclarationClosure
import ApiTypings.Proofs.DeclarationOutline
import ApiTypings.Proofs.DirectoryPlan
import ApiTypings.Proofs.DiscoveryRun
import ApiTypings.Proofs.DocumentKeys
import ApiTypings.Proofs.ExcludedApis
import ApiTypings.Proofs.FileCompletion
import ApiTypings.Proofs.FileTrees
import ApiTypings.Proofs.GenericNames
import ApiTypings.Proofs.GuardRestoration
import ApiTypings.Proofs.HeaderLines
import ApiTypings.Proofs.IndentedText
import ApiTypings.Proofs.InterfaceNames
import ApiTypings.Proofs.JsonLayouts
import ApiTypings.Proofs.KeyOrderIndependence
import ApiTypings.Proofs.LowerCase
import ApiTypings.Proofs.MemberNames
import ApiTypings.Proofs.MethodNames
import ApiTypings.Proofs.NormalForm
import ApiTypings.Proofs.NumberedVersions
import ApiTypings.Proofs.OpenBlocks
import ApiTypings.Proofs.OperationLevels
import ApiTypings.Proofs.PackageConfinement
import ApiTypings.Proofs.PackageWriting
import ApiTypings.Proofs.PartialPackages
import ApiTypings.Proofs.PrintedTokens
import ApiTypings.Proofs.ProcessingOrder
import ApiTypings.Proofs.ReorderedDeclarations
import ApiTypings.Proofs.ReorderedDescription
import ApiTypings.Proofs.ReorderedStub
import ApiTypings.Proofs.ResolvedPaths
import ApiTypings.Proofs.ResourceTree
import ApiTypings.Proofs.SettingsFaults
import ApiTypings.Proofs.SettingsLayers
import ApiTypings.Proofs.StableSources
import ApiTypings.Proofs.StructuralType
import ApiTypings.Proofs.StubCalls
import ApiTypings.Proofs.StubConformity
import ApiTypings.Proofs.StubExpansion
import ApiTypings.Proofs.StubFaults
import ApiTypings.Proofs.StubTermination
import ApiTypings.Proofs.StubWriting
import ApiTypings.Proofs.TargetDirectories
import ApiTypings.Proofs.TreeCoverage
import ApiTypings.Proofs.TypeFaults
import ApiTypings.Proofs.TypeGrammar
import ApiTypings.Proofs.TypeReading
import ApiTypings.Proofs.TypeText
import ApiTypings.Proofs.TypedParts
import ApiTypings.Proofs.UndefinedReferences
import ApiTypings.Proofs.UnknownFields
import ApiTypings.Proofs.ValueGrammar
import ApiTypings.Proofs.ValueReading
import ApiTypings.Proofs.ValueText
import ApiTypings.Proofs.VersionParts
import ApiTypings.Proofs.WrittenText

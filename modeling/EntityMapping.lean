import EntityMapping.Artifacts.Compilation
import EntityMapping.Proofs.EnsuringTwice
import EntityMapping.Proofs.LoadedRegistries
import EntityMapping.Proofs.LocalComposition
import EntityMapping.Proofs.OverlookedKeys
import EntityMapping.Proofs.Dressing
import EntityMapping.Proofs.DressedRelationships
import EntityMapping.Proofs.DressedDeclarations
import EntityMapping.Proofs.LocalRelationships
import EntityMapping.Proofs.ImpliedBackrefs
import EntityMapping.Proofs.InheritedProperties
import EntityMapping.Proofs.AssociativeComposition
import EntityMapping.Proofs.EffectiveKeywords
import EntityMapping.Proofs.Aliases
import EntityMapping.Proofs.AddedBackrefs
import EntityMapping.Proofs.RepeatedBackrefs
import EntityMapping.Proofs.ReorderedBackrefs
import EntityMapping.Proofs.AddedKeys
import EntityMapping.Proofs.SettledTables
import EntityMapping.Proofs.SettledValidity
import EntityMapping.Proofs.SettledMoments
import EntityMapping.Proofs.RepeatedRuns
import EntityMapping.Proofs.RepeatedCompilation
import EntityMapping.Proofs.AgreedKeys
import EntityMapping.Proofs.AgreedTables
import EntityMapping.Proofs.GivenModels
import EntityMapping.Proofs.ReorderedCompilation
import EntityMapping.Proofs.BackrefTurns
import EntityMapping.Proofs.KeptTables
import EntityMapping.Proofs.ModelNames
import EntityMapping.Proofs.WellFormedness
import EntityMapping.Proofs.BackedRegistries
import EntityMapping.Proofs.BackrefFrame
import EntityMapping.Proofs.Chains
import EntityMapping.Proofs.OwnTables
import EntityMapping.Proofs.SameValues
import EntityMapping.Proofs.Traces
import EntityMapping.Proofs.CollectedTables
import EntityMapping.Proofs.Paths
import EntityMapping.Proofs.NamedDocuments
import EntityMapping.Proofs.Relocation
import EntityMapping.Proofs.RemoteDocuments
import EntityMapping.Proofs.EndingChains
import EntityMapping.Proofs.EndlessChains
import EntityMapping.Proofs.ReferenceKeys
import EntityMapping.Proofs.SkippedEntities
import EntityMapping.Proofs.KeyChanges
import EntityMapping.Proofs.LinkedRegistries
import EntityMapping.Proofs.FiledProperties
import EntityMapping.Proofs.RelocatedReferences
import EntityMapping.Proofs.CollectedKeywords
import EntityMapping.Proofs.GrownEntities
import EntityMapping.Proofs.KeptValidity
import EntityMapping.Proofs.KeyColumns
import EntityMapping.Proofs.SpelledReferences
import EntityMapping.Proofs.ConfinedReferences
import EntityMapping.Proofs.WrittenArtifacts
import EntityMapping.Proofs.CompositeKeywords
import EntityMapping.Proofs.CanonicalPaths
import EntityMapping.Proofs.ParentSearch

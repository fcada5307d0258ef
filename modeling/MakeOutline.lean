import MakeOutline.FileTree
import MakeOutline.Main
import MakeOutline.Makefile.Journal
import MakeOutline.Proofs.Items
import MakeOutline.Proofs.NamedTargets
import MakeOutline.Proofs.Runs
import MakeOutline.Proofs.Layout
import MakeOutline.Proofs.LineLoop
import MakeOutline.Proofs.Outline
import MakeOutline.Proofs.PrefixStability
import MakeOutline.Proofs.Noninterference
import MakeOutline.Proofs.Numbering
import MakeOutline.Proofs.ContinuedHeaders
import MakeOutline.Proofs.LineGrammar
import MakeOutline.Proofs.LastValues
import MakeOutline.Proofs.SwallowedLines
import MakeOutline.Proofs.WellFormed
import MakeOutline.Proofs.Redefinitions
import MakeOutline.Proofs.Recipes
import MakeOutline.Proofs.RoundTrip
import MakeOutline.Proofs.PatternRules
import MakeOutline.Proofs.LineEnds
import MakeOutline.Proofs.SelfDelimiting
import MakeOutline.Proofs.Listing
import MakeOutline.Proofs.Resemblance
import MakeOutline.Proofs.DiscoveredRuns
import MakeOutline.Proofs.Overrides
import MakeOutline.Proofs.TargetRuns
import MakeOutline.Proofs.Expansion
import MakeOutline.Proofs.TextPieces
import MakeOutline.Proofs.ArgumentOrder
import MakeOutline.Proofs.InertLines
import MakeOutline.Proofs.WordsReadBack
import MakeOutline.Proofs.Defaults
import MakeOutline.Proofs.SeveralMakefiles
import MakeOutline.Proofs.DirectoryChoice
import MakeOutline.Proofs.TableTexts

import StreamScript.Main
import StreamScript.Proofs.Scoping
import StreamScript.Proofs.Supersession
import StreamScript.Proofs.Steady
import StreamScript.Proofs.Branches
import StreamScript.Proofs.Root
import StreamScript.Proofs.PartialOutput
import StreamScript.Proofs.PerElement
import StreamScript.Proofs.Leaves
import StreamScript.Proofs.Fanout
import StreamScript.Proofs.Blocks
import StreamScript.Proofs.LockStep
import StreamScript.Proofs.Equivalence
import StreamScript.Proofs.Staleness
import StreamScript.Proofs.Arrival
import StreamScript.Proofs.Schedules
import StreamScript.Proofs.Patience
import StreamScript.Proofs.Exit
import StreamScript.Proofs.Brackets
import StreamScript.Proofs.Operands
import StreamScript.Proofs.Derivation
import StreamScript.Proofs.ScopeForms
import StreamScript.Proofs.LineForms
import StreamScript.Proofs.Relayout
import StreamScript.Proofs.Renumbering
import StreamScript.Proofs.Accounts
import StreamScript.Proofs.Upright
import StreamScript.Proofs.Scans
import StreamScript.Proofs.Pieces
import StreamScript.Proofs.JsonRoundTrip
import StreamScript.Proofs.Work
import StreamScript.Proofs.Keeping
import StreamScript.Proofs.Notes
import StreamScript.Proofs.NotedRuns
import StreamScript.Proofs.CallDepth
import StreamScript.Proofs.SortMembers
import StreamScript.Proofs.WellFormed
import StreamScript.Proofs.WellFormedRuns
import StreamScript.Proofs.PrecedenceTree
import StreamScript.Proofs.ValueOrder
import StreamScript.Proofs.RunSort
import StreamScript.Proofs.StableSort
import StreamScript.Proofs.Groups
import StreamScript.Proofs.MapHistory
import StreamScript.Proofs.JsonNormal
import StreamScript.Proofs.ChainScripts
import StreamScript.Proofs.StoredScripts
import StreamScript.Proofs.Literals
import StreamScript.Proofs.Respacing
import StreamScript.Proofs.Separators
import StreamScript.Proofs.RegexSteps
import StreamScript.Proofs.Positions
import StreamScript.Proofs.Tiling
import StreamScript.Proofs.BracketWords
import StreamScript.Proofs.QuotedSettings
import StreamScript.Proofs.PlainNames

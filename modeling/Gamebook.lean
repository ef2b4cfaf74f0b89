import Gamebook.Main
import Gamebook.Proofs.Number.Overflow
import Gamebook.Proofs.Player.Reachable
import Gamebook.Proofs.Route.Least
import Gamebook.Proofs.Script.Interrupted
import Gamebook.Proofs.Service.Announced
import Gamebook.Proofs.Service.Interleaved
import Gamebook.Service.Job
import Gamebook.Proofs.Extension.Completeness
import Gamebook.Proofs.Extension.Repeated
import Gamebook.Proofs.Service.Repeated
import Gamebook.Proofs.Extension.Faithful
import Gamebook.Proofs.Extension.Pure
import Gamebook.Proofs.Extension.Frame
import Gamebook.Proofs.Script.Effect
import Gamebook.Proofs.Player.Return
import Gamebook.Proofs.Player.Closed
import Gamebook.Proofs.Service.Failed
import Gamebook.Proofs.Extension.Respelled
import Gamebook.Proofs.Player.Respelled
import Gamebook.Proofs.Script.Frame
import Gamebook.Proofs.Player.Multiplicity
import Gamebook.Proofs.Service.Streamed
import Gamebook.Proofs.Service.Statuses
import Gamebook.Proofs.Extension.Restored
import Gamebook.Proofs.Story.Lossless
import Gamebook.Proofs.Terminal.Session
import Gamebook.Proofs.Store
import Gamebook.Proofs.Script.Grammar
import Gamebook.Proofs.Script.Skipped
import Gamebook.Proofs.Player.Refused
import Gamebook.Proofs.Extension.Substituted
import Gamebook.Proofs.Story.Nearest
import Gamebook.Proofs.Prose
import Gamebook.Proofs.Script.Plain
import Gamebook.Proofs.Route.Agreement
import Gamebook.Proofs.Route.ReadThrough
import Gamebook.Proofs.Extension.Altered
import Gamebook.Proofs.Extension.Influence
import Gamebook.Proofs.Script.Combined
import Gamebook.Proofs.Extension.Fence
import Gamebook.Proofs.Story.Judged
import Gamebook.Proofs.Channel.Message
import Gamebook.Proofs.Script.Comparison
import Gamebook.Proofs.Number.Standard
import Gamebook.Proofs.Number.Written
import Gamebook.Proofs.Player.Counter

import RConsole.Callback.Desk
import RConsole.Callback.Tree
import RConsole.Config.Fault
import RConsole.Config.Item
import RConsole.Config.Reader
import RConsole.Config.Schema
import RConsole.Console.Basic
import RConsole.Console.Cycle
import RConsole.Console.Embedding
import RConsole.Console.Session
import RConsole.Edit.Buffer
import RConsole.Edit.Editor
import RConsole.Edit.Key
import RConsole.Edit.Keymap
import RConsole.Engine.Action
import RConsole.Engine.Basic
import RConsole.Engine.Discovery
import RConsole.Engine.Error
import RConsole.Engine.Objects
import RConsole.Engine.Start
import RConsole.History
import RConsole.Logging.Filter
import RConsole.Logging.Pattern
import RConsole.Logging.Pattern.Basic
import RConsole.Logging.Pattern.Class
import RConsole.Logging.Setup
import RConsole.Main
import RConsole.Program.CommandLine
import RConsole.Program.Launch
import RConsole.Prompt.Mode
import RConsole.Proofs.Callback.CleanUp
import RConsole.Proofs.Callback.Keeps
import RConsole.Proofs.Callback.Nesting
import RConsole.Proofs.Callback.Reply
import RConsole.Proofs.Console.Across
import RConsole.Proofs.Console.Acts
import RConsole.Proofs.Console.Background
import RConsole.Proofs.Console.Bound
import RConsole.Proofs.Console.Budget
import RConsole.Proofs.Console.Cancelling
import RConsole.Proofs.Console.Delivery
import RConsole.Proofs.Console.EditingModes
import RConsole.Proofs.Console.EventStep
import RConsole.Proofs.Console.FailedCycles
import RConsole.Proofs.Console.Failing
import RConsole.Proofs.Console.Interleaving
import RConsole.Proofs.Console.Ledger
import RConsole.Proofs.Console.LostOutput
import RConsole.Proofs.Console.Meanwhile
import RConsole.Proofs.Console.Output
import RConsole.Proofs.Console.Progress
import RConsole.Proofs.Console.Prompting
import RConsole.Proofs.Console.RawMode
import RConsole.Proofs.Console.Rounds
import RConsole.Proofs.Console.Schedule
import RConsole.Proofs.Console.ScreenRows
import RConsole.Proofs.Console.Standing
import RConsole.Proofs.Console.Turns
import RConsole.Proofs.Console.TwinTurns
import RConsole.Proofs.Console.Twins
import RConsole.Proofs.Edit.Completing
import RConsole.Proofs.Edit.Edits
import RConsole.Proofs.Edit.Lines
import RConsole.Proofs.Edit.Pressing
import RConsole.Proofs.Edit.Ranges
import RConsole.Proofs.Edit.Sheet
import RConsole.Proofs.Edit.ViKeys
import RConsole.Proofs.Edit.Walking
import RConsole.Proofs.Edit.Zipper
import RConsole.Proofs.Engine.Decoding
import RConsole.Proofs.Engine.Entering
import RConsole.Proofs.Engine.Measuring
import RConsole.Proofs.Engine.Observes
import RConsole.Proofs.Engine.Once
import RConsole.Proofs.Engine.Process
import RConsole.Proofs.Engine.Starting
import RConsole.Proofs.Prompt.Trace
import RConsole.Proofs.Screen.Cuts
import RConsole.Proofs.Screen.Groups
import RConsole.Proofs.Screen.Keeping
import RConsole.Proofs.Screen.Layout
import RConsole.Proofs.Screen.Newlines
import RConsole.Proofs.Screen.Redraw
import RConsole.Proofs.Screen.Tty
import RConsole.Proofs.Store.Files
import RConsole.Proofs.Store.History
import RConsole.Proofs.Store.Saving
import RConsole.Proofs.Text.Boundary
import RConsole.Proofs.Text.Lines
import RConsole.Proofs.Text.Path
import RConsole.Proofs.Text.Pieces
import RConsole.Proofs.Text.RawText
import RConsole.Proofs.Text.Returns
import RConsole.Proofs.Text.Runs
import RConsole.Proofs.Text.Utf8
import RConsole.Proofs.Text.Words
import RConsole.Proofs.Waiting
import RConsole.Pump
import RConsole.Screen.Drawing
import RConsole.Screen.Layout
import RConsole.Settings
import RConsole.Store.Files
import RConsole.Terminal.Basic
import RConsole.Terminal.Keystrokes
import RConsole.Text.Path
import RConsole.Text.Pieces
import RConsole.Text.Plain
import RConsole.Text.Quoted
import RConsole.Text.Real
import RConsole.Text.Utf8
import RConsole.Text.Words

import Parley.Cli.Arguments
import Parley.Cli.Run
import Parley.Compile
import Parley.Compile.Builder
import Parley.Compile.Options
import Parley.Compile.Slots
import Parley.Dialogue.Basic
import Parley.Dialogue.Command
import Parley.Dialogue.References
import Parley.Failure
import Parley.Files.Disk
import Parley.Files.Folder
import Parley.Files.Path
import Parley.Json.Text
import Parley.Json.Value
import Parley.Main
import Parley.Play.Choice
import Parley.Play.Cursor
import Parley.Play.Scene
import Parley.Play.Session
import Parley.Play.Turn
import Parley.Player.FullScreen
import Parley.Player.Game
import Parley.Player.Input
import Parley.Player.LineMode
import Parley.Player.Panel
import Parley.Player.SavedGame
import Parley.Player.Screen
import Parley.Player.Script
import Parley.Player.Step
import Parley.Player.Wrap
import Parley.Report.Check
import Parley.Report.Lines
import Parley.Source.Balance
import Parley.Source.Layout
import Parley.Source.Mark
import Parley.Source.Region
import Parley.Source.Sections
import Parley.Text.Blank
import Parley.Text.Split
import Parley.Proofs.Source.Balanced
import Parley.Proofs.Source.Pieces
import Parley.Proofs.Source.Tally
import Parley.Proofs.Source.Passes
import Parley.Proofs.Source.Sections
import Parley.Proofs.Source.Counts
import Parley.Proofs.Compile.Consistency
import Parley.Proofs.Compile.CountAgreement
import Parley.Proofs.Page.Basic
import Parley.Proofs.Page.Reading
import Parley.Proofs.Page.Pieces
import Parley.Proofs.Page.Soundness
import Parley.Proofs.Page.Completeness
import Parley.Proofs.Page.Unambiguous
import Parley.Proofs.Page.Language
import Parley.Proofs.Page.Grammar
import Parley.Proofs.Writing.Basic
import Parley.Proofs.Page.Plain
import Parley.Proofs.Writing.RoundTrip
import Parley.Proofs.Json.Text
import Parley.Proofs.Json.Value
import Parley.Proofs.Json.Compact
import Parley.Proofs.Files.Disk
import Parley.Proofs.Player.SavedGame
import Parley.Proofs.Player.SaveFile
import Parley.Proofs.Player.Script
import Parley.Proofs.Cli.Agent
import Parley.Proofs.Dialogue.Lookup
import Parley.Proofs.Dialogue.Index
import Parley.Proofs.Dialogue.References
import Parley.Proofs.Page.WellFormed
import Parley.Proofs.Writing.Image
import Parley.Proofs.Play.Safety
import Parley.Proofs.Source.Faults
import Parley.Proofs.Source.Stripping
import Parley.Proofs.Compile.Layout
import Parley.Proofs.Player.Run
import Parley.Proofs.Player.Showing
import Parley.Proofs.Player.Modes
import Parley.Proofs.Player.Saving
import Parley.Proofs.Player.Ending
import Parley.Proofs.Compile.Places
import Parley.Proofs.Compile.Simulation
import Parley.Proofs.Play.InPlace
import Parley.Proofs.Play.Choice
import Parley.Proofs.Play.Reading
import Parley.Proofs.Player.Loading
import Parley.Proofs.Page.Parts
import Parley.Proofs.Compile.Independence
import Parley.Proofs.Compile.HostCommands
import Parley.Proofs.Report.Lines
import Parley.Proofs.Compile.Tables
import Parley.Proofs.Compile.Draft
import Parley.Proofs.Compile.ForeignCounts
import Parley.Proofs.Player.Actions
import Parley.Proofs.Player.Window
import Parley.Proofs.Player.Wrap
import Parley.Proofs.Player.Turns
import Parley.Proofs.Player.Words
import Parley.Proofs.Player.Painting
import Parley.Proofs.Player.Screen
import Parley.Proofs.Player.OnScreen
import Parley.Proofs.Files.Entries
import Parley.Proofs.Files.Room
import Parley.Proofs.Files.Scripts
import Parley.Proofs.Files.Order
import Parley.Proofs.Cli.Check
import Parley.Proofs.Cli.Order

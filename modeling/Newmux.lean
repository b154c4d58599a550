import Newmux.Base.TSys
import Newmux.Base.Table
import Newmux.Base.Decimal
import Newmux.Base.Split
import Newmux.Base.Strtoll
import Newmux.Base.Pace
import Newmux.Base.Ends
import Newmux.Base.ReadReplace
import Newmux.Base.Journal
import Newmux.Base.Shell
import Newmux.Base.Cover
import Newmux.Tmux.Winlink
import Newmux.Tmux.Grid
import Newmux.Tmux.Layout
import Newmux.Tmux.LayoutCustom
import Newmux.Tmux.Server
import Newmux.Tmux.Session
import Newmux.Tmux.Window
import Newmux.Recovery.History
import Newmux.Recovery.Item
import Newmux.Recovery.Attach
import Newmux.Recovery.Restore
import Newmux.Recovery.Commands
import Newmux.Recovery.Create
import Newmux.Recovery.System
import Newmux.Runtime.Files
import Newmux.Logic.History
import Newmux.Logic.Preserve
import Newmux.Logic.Cells
import Newmux.Logic.LayoutTree
import Newmux.Logic.LayoutText
import Newmux.Logic.LayoutUint
import Newmux.Logic.Stack
import Newmux.Logic.Steps
import Newmux.Logic.Windows
import Newmux.Logic.Panes
import Newmux.Logic.Moves
import Newmux.Logic.Links
import Newmux.Logic.Shrink
import Newmux.Logic.ServerOps
import Newmux.Logic.Current
import Newmux.Logic.Sync
import Newmux.Logic.Attach
import Newmux.Logic.Ordinal
import Newmux.Logic.Create
import Newmux.Logic.Restore
import Newmux.Logic.Runs
import Newmux.Logic.Recovery
import Newmux.Logic.Parking
import Newmux.Logic.ParkIn
import Newmux.Logic.ParkOut
import Newmux.Logic.Tabs
import Newmux.App.CloseTab
import Newmux.App.PendingTab
import Newmux.App.CreateTab
import Newmux.App.RestoreTab
import Newmux.App.RestoreClaim
import Newmux.Logic.Stable
import Newmux.Logic.Housing
import Newmux.Logic.Homes
import Newmux.Logic.Selection
import Newmux.Theorems.RestoreClaim
import Newmux.Theorems.SilentMoves
import Newmux.App.ScrollReport
import Newmux.Logic.Numbers
import Newmux.Live.Line
import Newmux.Live.Grid
import Newmux.Live.Screen
import Newmux.Live.Output
import Newmux.Live.PaneOutput
import Newmux.Live.CopyMode
import Newmux.Live.CopyUpdate
import Newmux.Live.CopyMoves
import Newmux.Live.CopyText
import Newmux.Live.Wheel
import Newmux.Live.CopySystem
import Newmux.Live.WheelRun
import Newmux.Live.CopyScroll
import Newmux.Keys.Scroll
import Newmux.Keys.Packet
import Newmux.Logic.Rows
import Newmux.Logic.Marks
import Newmux.Logic.Writes
import Newmux.Logic.Follow
import Newmux.Logic.Bounds
import Newmux.Logic.Engine
import Newmux.Logic.Packet
import Newmux.Runtime.Mirror
import Newmux.Logic.Mirror
import Newmux.Theorems.HistoryRestore
import Newmux.Theorems.UndoOrder
import Newmux.Theorems.DeadEntry
import Newmux.Theorems.RestoreAtomic
import Newmux.Theorems.Parked
import Newmux.Theorems.Reservation
import Newmux.Theorems.ClosedTab
import Newmux.Theorems.GhostWindow
import Newmux.Theorems.StuckReservation
import Newmux.Theorems.DirtyRows
import Newmux.Theorems.Anchor
import Newmux.Theorems.Redraw
import Newmux.Theorems.Viewport
import Newmux.Theorems.ScrollGrammar
import Newmux.Theorems.ScrollLines
import Newmux.Theorems.ScrollTrip
import Newmux.Theorems.WheelSpeed
import Newmux.Theorems.WheelAccount
import Newmux.Theorems.ModeWheel
import Newmux.Theorems.ScrollBatch
import Newmux.Theorems.Preserved
import Newmux.Theorems.LostUpdate
import Newmux.Theorems.Mirror
import Newmux.Theorems.Protected
import Newmux.Theorems.Placement
import Newmux.Theorems.Insertion
import Newmux.Theorems.Layout
import Newmux.Theorems.Tiled
import Newmux.Theorems.Sessions
import Newmux.Theorems.Linked
import Newmux.Theorems.NewWindow
import Newmux.Theorems.EveryRun
import Newmux.Theorems.TabMoves
import Newmux.Theorems.Undo

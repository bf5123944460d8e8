import ToyBox.Cxx.Number
import ToyBox.Cxx.Sort
import ToyBox.LogParser.Cell
import ToyBox.LogParser.LogParser
import ToyBox.LogParser.LogParserMgr
import ToyBox.LogParser.FromFile
import ToyBox.Library.Checked
import ToyBox.LogParser.Parsed
import ToyBox.LogParser.Merge
import ToyBox.LogParser.MergeSafety
import ToyBox.LogParser.Queries
import ToyBox.LogParser.FileOrder
import ToyBox.Library.TransitionSystem
import ToyBox.TcpChat.TcpServer
import ToyBox.TcpChat.Effect
import ToyBox.TcpChat.Connections
import ToyBox.TcpChat.EdgeTriggered
import ToyBox.Library.Pieces
import ToyBox.TcpChat.TcpClient
import ToyBox.TcpChat.ChatRoom
import ToyBox.TcpChat.Relay
import ToyBox.TcpChat.Atomicity
import ToyBox.Library.FileSystem
import ToyBox.Library.Segments
import ToyBox.Logger.FileWriter
import ToyBox.Logger.Rotation
import ToyBox.Logger.Logger
import ToyBox.Logger.LoggerEffect
import ToyBox.Logger.Delivery
import ToyBox.Logger.Close
import ToyBox.App.QuietClose
import ToyBox.TcpChat.Isolation
import ToyBox.TcpChat.Broadcast
import ToyBox.LogParser.Usable
import ToyBox.LogParser.ColumnNames
import ToyBox.LogParser.OneFile
import ToyBox.LogParser.Reparse
import ToyBox.App.Control
import ToyBox.Logger.Recovery
import ToyBox.Logger.Config
import ToyBox.Logger.Clobber
import ToyBox.Cxx.Literal
import ToyBox.LogParser.Classify
import ToyBox.LogParser.Sorted
import ToyBox.LogParser.ColumnOrder
import ToyBox.LogParser.Typed
import ToyBox.LogParser.IntSum
import ToyBox.LogParser.Timestamps
import ToyBox.Cxx.Binary32
import ToyBox.Cxx.Strtof
import ToyBox.LogParser.FloatOrder
import ToyBox.LogParser.DecimalOrder
import ToyBox.Util.Drain
import ToyBox.Logger.Restart
import ToyBox.App.Starters
import ToyBox.App.ErrChan
import ToyBox.Cxx.StringStream
import ToyBox.Util.Split
import ToyBox.LogParser.Written
import ToyBox.TcpChat.Framing
import ToyBox.App.PreCheck
import ToyBox.Logger.NoRotation
import ToyBox.Logger.Routing
import ToyBox.Library.Tally
import ToyBox.LogParser.ParseTwice
import ToyBox.MovieAnalysis.Date
import ToyBox.MovieAnalysis.MovieAnalysis
import ToyBox.MovieAnalysis.ChartData
import ToyBox.Library.Simulation
import ToyBox.LogParser.ParseEnds
import ToyBox.LogParser.GenParse
import ToyBox.TcpChat.Forum
import ToyBox.Library.FileFrame
import ToyBox.Logger.Neighbours
import ToyBox.Logger.Sinks
import ToyBox.Logger.Pipeline
import ToyBox.Logger.OnDisk
import ToyBox.App.Redirector
import ToyBox.App.Moves
import ToyBox.App.Service
import ToyBox.App.ServiceEnds
import ToyBox.App.ServiceUp
import ToyBox.Library.Ranking
import ToyBox.LogParser.AllFiles

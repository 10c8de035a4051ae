import NetProg.Net.ScanBounds
import NetProg.P1.Agreement
import NetProg.P2.Buffers
import NetProg.P2.ClientMain
import NetProg.P2.Framing
import NetProg.P2.Lengths
import NetProg.P2.Names
import NetProg.P2.Processes
import NetProg.P2.Stored
import NetProg.P2.Uploads
import NetProg.P3.Assignment
import NetProg.P3.Contents
import NetProg.P3.Exchange
import NetProg.P3.Fifo
import NetProg.P3.HeadOfLine
import NetProg.P3.LeftBehind
import NetProg.P3.Ownership
import NetProg.P3.Progress
import NetProg.P3.Responses
import NetProg.P3.Startup
import NetProg.P3.Turns
import NetProg.P4.Acknowledged
import NetProg.P4.Clogged
import NetProg.P4.Command
import NetProg.P4.Encoding
import NetProg.P4.EndToEnd
import NetProg.P4.Framing
import NetProg.P4.Greeting
import NetProg.P4.Hashes
import NetProg.P4.Leaks
import NetProg.P4.Replies
import NetProg.P4.Unchecked
import NetProg.P4.Welcomed

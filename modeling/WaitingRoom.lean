import WaitingRoom.Combinatorics.CycleWalk
import WaitingRoom.Common.Expr
import WaitingRoom.Common.Grammar
import WaitingRoom.Concurrency.Lift
import WaitingRoom.Edge.Admission
import WaitingRoom.Edge.Credentials
import WaitingRoom.Edge.FailOpen
import WaitingRoom.Edge.Gate
import WaitingRoom.Edge.Headroom
import WaitingRoom.Edge.Matching
import WaitingRoom.Edge.Network
import WaitingRoom.Edge.Numbers
import WaitingRoom.Edge.Paths
import WaitingRoom.Edge.Protected
import WaitingRoom.Edge.RuleForm
import WaitingRoom.Edge.Script
import WaitingRoom.Lambda.NoJs
import WaitingRoom.Operators
import WaitingRoom.Page.Baseline
import WaitingRoom.Page.Destination
import WaitingRoom.Page.Floor
import WaitingRoom.Page.Joining
import WaitingRoom.Page.Pace
import WaitingRoom.Page.PollLoop
import WaitingRoom.Page.Redirects
import WaitingRoom.Page.Refused
import WaitingRoom.Page.Return
import WaitingRoom.Page.Timed
import WaitingRoom.Page.Waiting
import WaitingRoom.Properties.Admission
import WaitingRoom.Properties.Anchor
import WaitingRoom.Properties.Arrivals
import WaitingRoom.Properties.Baseline
import WaitingRoom.Properties.Cohort
import WaitingRoom.Properties.Conserved
import WaitingRoom.Properties.Credit
import WaitingRoom.Properties.Debounce
import WaitingRoom.Properties.Draw
import WaitingRoom.Properties.Expressions
import WaitingRoom.Properties.Holds
import WaitingRoom.Properties.Joins
import WaitingRoom.Properties.Measured
import WaitingRoom.Properties.Overlap
import WaitingRoom.Properties.Permutation
import WaitingRoom.Properties.Phases
import WaitingRoom.Properties.Places
import WaitingRoom.Properties.Positions
import WaitingRoom.Properties.Possession
import WaitingRoom.Properties.Release
import WaitingRoom.Properties.Stragglers
import WaitingRoom.Schedule.Announcement
import WaitingRoom.Schedule.StartTime
import WaitingRoom.Text.Lexemes
import WaitingRoom.Text.Outline
import WaitingRoom.Text.Percent
import WaitingRoom.Text.Precedence
import WaitingRoom.Text.Segments
import WaitingRoom.Text.Utf16
import WaitingRoom.Common.Uuid
import WaitingRoom.Console.Login
import WaitingRoom.Console.Protocol
import WaitingRoom.Console.Authority
import WaitingRoom.Properties.Turns
import WaitingRoom.Concurrency.Expiring
import WaitingRoom.Lambda.Status
import WaitingRoom.Properties.Document
import WaitingRoom.Properties.Progress
import WaitingRoom.NoJs.Identity
import WaitingRoom.NoJs.Service
import WaitingRoom.NoJs.Visits
import WaitingRoom.Properties.Holder
import WaitingRoom.Page.Bodies
import WaitingRoom.Page.Served
import WaitingRoom.Page.Unhurried
import WaitingRoom.Numerics.Rounding

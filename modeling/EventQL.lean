import EventQL.LogJoin.Basic
import EventQL.LogJoin.Record
import EventQL.LogJoin.Store
import EventQL.LogJoin.Cursor
import EventQL.LogJoin.State
import EventQL.LogJoin.Core
import EventQL.LogJoin.Ingress
import EventQL.LogJoin.Flush
import EventQL.LogJoin.Run
import EventQL.LogJoin.Owners
import EventQL.LogJoin.Bootstrap
import EventQL.LogJoin.Sessions
import EventQL.LogJoin.Lifetime
import EventQL.LogJoin.Restarts
import EventQL.LogJoin.Delivery
import EventQL.LogJoin.FlushOrder
import EventQL.LogJoin.Stats
import EventQL.LogJoin.DryRun
import EventQL.Sql.NestedLoopJoin
import EventQL.Sql.JoinRefinement
import EventQL.Sql.JoinErrors

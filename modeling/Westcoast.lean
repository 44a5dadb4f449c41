import Westcoast.Actor.Supervision
import Westcoast.Actor.Capture
import Westcoast.PubSub.Direct
import Westcoast.Actor.Fencing
import Westcoast.Cluster.Departure
import Westcoast.Cluster.AtMostOne
import Westcoast.Cluster.Attempts
import Westcoast.Cluster.Drivers
import Westcoast.Cluster.Running
import Westcoast.Cluster.Routing
import Westcoast.Actor.Issued
import Westcoast.Actor.Survival
import Westcoast.Cluster.Bindings
import Westcoast.Cluster.Ownership
import Westcoast.Cluster.Correlation
import Westcoast.Actor.DeadLetters
import Westcoast.Cluster.Monitoring
import Westcoast.Cluster.Terms
import Westcoast.Cron.Firing
import Westcoast.Cron.Tables
import Westcoast.Actor.Incarnations
import Westcoast.Actor.Recreation
import Westcoast.Actor.Tracking
import Westcoast.Actor.Wakeup
import Westcoast.Cluster.Daemons
import Westcoast.Cluster.Failover
import Westcoast.Cluster.Join
import Westcoast.Cluster.StreamAuth
import Westcoast.Provider.Closing
import Westcoast.Cluster.Placement
import Westcoast.Provider.Detector
import Westcoast.Cluster.Origins
import Westcoast.Provider.Freshness
import Westcoast.Cluster.MetadataGossip
import Westcoast.Cluster.Affinity
import Westcoast.Cluster.Preferences
import Westcoast.Cluster.ServiceGroups
import Westcoast.Cluster.Bookkeeping
import Westcoast.Actor.Replies
import Westcoast.PubSub.Isolation
import Westcoast.Actor.Downs
import Westcoast.Actor.StopOnce
import Westcoast.Cluster.Watchers
import Westcoast.Actor.Ensure
import Westcoast.Actor.Readiness
import Westcoast.PubSub.Languages
import Westcoast.PubSub.Views
import Westcoast.Actor.RouteHistory
import Westcoast.Actor.NameTable
import Westcoast.Cluster.Framing
import Westcoast.Actor.Timers

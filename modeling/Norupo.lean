import Norupo.Foundation.Transition
import Norupo.Foundation.Since
import Norupo.Foundation.Account
import Norupo.Foundation.Multimap
import Norupo.Foundation.Pattern
import Norupo.Foundation.Chunks
import Norupo.Foundation.Sender
import Norupo.Foundation.Markup
import Norupo.Foundation.Sharing
import Norupo.Core.Error
import Norupo.Core.Uri
import Norupo.Core.Routing
import Norupo.Core.Hosts
import Norupo.Core.Canonical
import Norupo.Core.Subdomains
import Norupo.Core.CustomDomains
import Norupo.Core.Tokens
import Norupo.Registry.Memory
import Norupo.Registry.Codec
import Norupo.Registry.Lease
import Norupo.Registry.Redis
import Norupo.Registry.Owner
import Norupo.Registry.Environments
import Norupo.Edge.Lifetime
import Norupo.Edge.Truncation
import Norupo.Edge.Upload
import Norupo.Edge.Window
import Norupo.Edge.Credit
import Norupo.Edge.Calls
import Norupo.Edge.StreamTable
import Norupo.Edge.Ceiling
import Norupo.Edge.Closing
import Norupo.Edge.Overflow
import Norupo.Edge.Sending
import Norupo.Agent.Target
import Norupo.Agent.Dialable
import Norupo.Agent.Delivery
import Norupo.Agent.Truncation
import Norupo.Agent.Download
import Norupo.Agent.Window
import Norupo.Agent.Credit
import Norupo.Agent.Sending
import Norupo.Agent.Terminal
import Norupo.Agent.Answer
import Norupo.Agent.Request
import Norupo.Agent.StreamTable
import Norupo.Agent.Retry
import Norupo.Agent.Backoff
import Norupo.Connection.System
import Norupo.Connection.Multiplexing
import Norupo.Connection.Response
import Norupo.Connection.Request
import Norupo.Connection.FlowControl
import Norupo.Connection.CircularWait
import Norupo.Connection.Conservation
import Norupo.Connection.Stall
import Norupo.Connection.Chunking
import Norupo.Connection.Forwarded
import Norupo.Ingress.Route
import Norupo.Ingress.HandOff
import Norupo.Ingress.Headers
import Norupo.Ingress.Response
import Norupo.Ingress.Capacity
import Norupo.Ingress.Hops
import Norupo.Ingress.EntryNode
import Norupo.Ingress.Pages
import Norupo.Control.Register
import Norupo.Control.Keys
import Norupo.Control.KeySpaces
import Norupo.Control.AllOrNothing
import Norupo.Control.Authorization
import Norupo.Control.Cluster
import Norupo.Control.Ownership
import Norupo.Control.Teardown
import Norupo.Control.Reconnect
import Norupo.Control.Tunnels
import Norupo.Control.Quota
import Norupo.Control.Handshake
import Norupo.Control.Expiry
import Norupo.Control.RedisCluster
import Norupo.Connection.Tenancy
import Norupo.Connection.Recovery
import Norupo.Connection.Refusal
import Norupo.Connection.Prompts
import Norupo.Connection.Standing
import Norupo.Connection.Orphans
import Norupo.Connection.Diagnosis
import Norupo.Control.Outages

import Pixiu.Api.Conflict
import Pixiu.Api.PathParams
import Pixiu.Cluster.Cursors
import Pixiu.Cluster.Events
import Pixiu.Cluster.HealthRace
import Pixiu.Cluster.Identity
import Pixiu.Cluster.Ownership
import Pixiu.Cluster.Sessions
import Pixiu.Cluster.Versioning
import Pixiu.Config.Watch
import Pixiu.Controller.AttachedRoutes
import Pixiu.Controller.Attachment
import Pixiu.Controller.Backends
import Pixiu.Controller.Filters
import Pixiu.Controller.Hostnames
import Pixiu.Controller.PolicyMerge
import Pixiu.Dubbo.Nacos
import Pixiu.Dubbo.Zookeeper
import Pixiu.Filter.Jwt
import Pixiu.Filter.Traffic
import Pixiu.Hotreload.Coordinator
import Pixiu.KvCache.CircuitBreaker
import Pixiu.KvCache.Tokens
import Pixiu.Llm.Cooldown
import Pixiu.Llm.Nacos
import Pixiu.LoadBalancer.MaglevHash
import Pixiu.LoadBalancer.RoundRobin
import Pixiu.LoadBalancer.WeightRandom
import Pixiu.Maglev.Admission
import Pixiu.Maglev.Balance
import Pixiu.Mcp.Delivery
import Pixiu.Mcp.Identity
import Pixiu.Mcp.Lifecycle
import Pixiu.Mcp.Publication
import Pixiu.Mcp.Receipts
import Pixiu.Mcp.Refresh
import Pixiu.Mcp.SessionManager
import Pixiu.Mcp.SourceKey
import Pixiu.McpRegistry.Controller
import Pixiu.Routing.Debounce
import Pixiu.Routing.Monotone
import Pixiu.Routing.Order
import Pixiu.Routing.Priority
import Pixiu.Routing.TrieMap
import Pixiu.Server.Manager
import Pixiu.SpringCloud.Sync
import Pixiu.SpringCloud.Zookeeper
import Pixiu.Xds.EndpointMetadata
import Pixiu.Cluster.Sparse
import Pixiu.Cluster.Material
import Pixiu.Routing.CompiledHeaders
import Pixiu.Grpc.FileOrder
import Pixiu.Filter.OpenApi
import Pixiu.Grpc.DescriptorCache
import Pixiu.Llm.TokenPipe
import Pixiu.Llm.EventStream
import Pixiu.Llm.Execute

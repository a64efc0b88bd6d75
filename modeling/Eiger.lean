import Eiger.Lib.Run
import Eiger.Lib.Outcome
import Eiger.Lib.Future
import Eiger.Lib.Tally
import Eiger.Lib.Worklist
import Eiger.Lib.Replace
import Eiger.Lib.Escape
import Eiger.Lib.Text
import Eiger.Lib.Path
import Eiger.Lib.Url
import Eiger.Lib.Json
import Eiger.Lib.Markup
import Eiger.Lib.Exposition
import Eiger.Lib.Potential
import Eiger.Lib.Simulation
import Eiger.Lib.Dialogue
import Eiger.Lib.Binary64
import Eiger.Lib.JsonNumber
import Eiger.Lib.Literal
import Eiger.Config.Types
import Eiger.Config.Env
import Eiger.Browser.Types
import Eiger.Browser.Cdp
import Eiger.Browser.CommandLine
import Eiger.Browser.UserAgent
import Eiger.Browser.Launch
import Eiger.Browser.PortFile
import Eiger.Browser.Signals
import Eiger.Browser.Stealth
import Eiger.Browser.Existing
import Eiger.Metrics.Sample
import Eiger.Metrics.Exposition
import Eiger.Pool.Types
import Eiger.Pool.ProfilePath
import Eiger.Pool.RssLimit
import Eiger.Pool.Memory
import Eiger.Pool.Task
import Eiger.Pool.System
import Eiger.Pool.Steps
import Eiger.Pool.Effects
import Eiger.Pool.Resources
import Eiger.Pool.Drops
import Eiger.Pool.Moves
import Eiger.Pool.Capacity
import Eiger.Pool.Lifecycle
import Eiger.Pool.Ownership
import Eiger.Pool.Idle
import Eiger.Pool.Children
import Eiger.Pool.Orphans
import Eiger.Pool.Profiles
import Eiger.Pool.Readiness
import Eiger.Pool.LaunchStatus
import Eiger.Pool.Recycles
import Eiger.Pool.Pass
import Eiger.Pool.Exits
import Eiger.Pool.Progress
import Eiger.Pool.Waits
import Eiger.Pool.Quiescence
import Eiger.Pool.Registry
import Eiger.Pool.Isolation
import Eiger.Pool.Stop
import Eiger.Proxy.Model
import Eiger.Proxy.Steps
import Eiger.Proxy.Downstream
import Eiger.Proxy.Upstream
import Eiger.Proxy.Progress
import Eiger.Api.Query
import Eiger.Api.Auth
import Eiger.Api.Overrides
import Eiger.Api.Precedence
import Eiger.Api.Extensions
import Eiger.Api.Confinement
import Eiger.Api.Navigation
import Eiger.Api.Calls
import Eiger.Api.CommandIds
import Eiger.Api.Handlers
import Eiger.Api.View
import Eiger.Api.Exchanges
import Eiger.Api.Pages
import Eiger.Api.Scripts
import Eiger.Api.Outcomes
import Eiger.Api.Sizes
import Eiger.Api.Evaluation
import Eiger.Client.Node
import Eiger.Server.RateLimit
import Eiger.Server.Start

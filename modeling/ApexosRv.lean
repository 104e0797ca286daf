import ApexosRv.WhileLoop
import ApexosRv.Protocol
import ApexosRv.Driver
import ApexosRv.Reference
import ApexosRv.RustStr
import ApexosRv.Directive
import ApexosRv.Link
import ApexosRv.Mesh
import ApexosRv.Budget
import ApexosRv.Wire
import ApexosRv.Turns
import ApexosRv.Schedule
import ApexosRv.Isolation
import ApexosRv.Drive
import ApexosRv.Scripted
import ApexosRv.Agreement
import ApexosRv.Watchdog
import ApexosRv.Sessions
import ApexosRv.Runs
import ApexosRv.Worklist
import ApexosRv.Forest
import ApexosRv.Fold
import ApexosRv.Lineage
import ApexosRv.Cascade
import ApexosRv.Registration
import ApexosRv.Tools
import ApexosRv.Replay
import ApexosRv.Contexts
import ApexosRv.Scripts
import ApexosRv.Convention
import ApexosRv.Steers
import ApexosRv.Utf8
import ApexosRv.Uart
import ApexosRv.Frames
import ApexosRv.RawMesh
import ApexosRv.Reassembly
import ApexosRv.Pongs
import ApexosRv.Closing
import ApexosRv.Bump
import ApexosRv.Dma
import ApexosRv.XorShift
import ApexosRv.Draws
import ApexosRv.Masking
import ApexosRv.Fair
import ApexosRv.Dialogue
import ApexosRv.Tracks
import ApexosRv.Exchange
import ApexosRv.Json
import ApexosRv.JsonText
import ApexosRv.Mockd
import ApexosRv.Gates
import ApexosRv.Kernel
import ApexosRv.Narrative
import ApexosRv.Fuel
import ApexosRv.Online
import ApexosRv.Opening
import ApexosRv.LineGoal
import ApexosRv.Serde
import ApexosRv.Derive
import ApexosRv.JsonValue
import ApexosRv.SerdeImpl
import ApexosRv.Contract
import ApexosRv.ContractText
import ApexosRv.ContractUart
import ApexosRv.GatewayFrames

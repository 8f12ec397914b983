import EthExecutive.Basic
import EthExecutive.State.Changelog
import EthExecutive.State.Rollback
import EthExecutive.State.Run
import EthExecutive.State.Queries
import EthExecutive.Executive.Defs
import EthExecutive.Executive.Steps
import EthExecutive.Executive.Initialize
import EthExecutive.Executive.Frame
import EthExecutive.Executive.Dispatch
import EthExecutive.Executive.Gas
import EthExecutive.Executive.Conservation
import EthExecutive.Executive.Nested
import EthExecutive.Executive.Fees
import EthExecutive.State.Commit
import EthExecutive.Tracer

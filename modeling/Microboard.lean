import Microboard.Scheduler
import Microboard.Bus.Board
import Microboard.Proofs.Lockstep
import Microboard.Proofs.Sm83.Lockstep
import Microboard.Proofs.Sm83.Boundary
import Microboard.Proofs.Ucom4.Boundary
import Microboard.Proofs.Lines
import Microboard.Proofs.Slicing
import Microboard.Proofs.Sm83.Idling
import Microboard.Proofs.Ucom4.Idling
import Microboard.Proofs.CoreSlicing
import Microboard.Proofs.Accounting
import Microboard.Proofs.Sm83.Cycles
import Microboard.Proofs.Ucom4.Cycles
import Microboard.Proofs.CoreCycles
import Microboard.Proofs.Scheduling.Drift
import Microboard.Proofs.Accesses
import Microboard.Proofs.CoreLockstep
import Microboard.Proofs.Scheduling.Separation
import Microboard.Proofs.CoreRestoring
import Microboard.Proofs.Ucom4.Restoring
import Microboard.Proofs.Ucom4.Twins
import Microboard.Proofs.CoreFaults
import Microboard.Proofs.Metering
import Microboard.Proofs.Sm83.Ledger
import Microboard.Proofs.Ucom4.Ledger
import Microboard.Proofs.CoreBilling
import Microboard.Proofs.CoreRuns
import Microboard.Proofs.Boards
import Microboard.Proofs.CoreSharing
import Microboard.Proofs.Requests
import Microboard.Proofs.Sm83.Requests
import Microboard.Proofs.Ucom4.Requests
import Microboard.Proofs.CoreRequests
import Microboard.Proofs.CoreAtomicity
import Microboard.Proofs.Ucom4.Widths
import Microboard.Proofs.Maps.Flat
import Microboard.Proofs.Maps.Refinement
import Microboard.Proofs.Tapes
import Microboard.Proofs.CoreTapes
import Microboard.Proofs.Sm83.Watching
import Microboard.Proofs.Sm83.Privacy
import Microboard.Proofs.Ucom4.Watching
import Microboard.Proofs.Ucom4.Discipline
import Microboard.Proofs.Sm83.Holding
import Microboard.Proofs.Ucom4.Holding
import Microboard.Proofs.CoreHolding
import Microboard.Proofs.Sm83.Switches
import Microboard.Proofs.CoreLatches
import Microboard.Proofs.CoreHaltOutput
import Microboard.Proofs.Listings
import Microboard.Proofs.Sm83.Fetching
import Microboard.Proofs.Ucom4.Fetching
import Microboard.Proofs.CoreListings
import Microboard.Proofs.Hexadecimal
import Microboard.Proofs.CoreTargets
import Microboard.Proofs.Sm83.Entering
import Microboard.Proofs.CoreEnabling
import Microboard.Proofs.Sm83.Sleeping
import Microboard.Proofs.CoreWaking
import Microboard.Proofs.Sm83.Arithmetic
import Microboard.Proofs.Maps.Cells
import Microboard.Proofs.Sm83.Stacking
import Microboard.Proofs.Ucom4.Entering
import Microboard.Proofs.Ucom4.Returning
import Microboard.Proofs.Ucom4.Retiring
import Microboard.Proofs.Ucom4.Skipping
import Microboard.Proofs.Ucom4.Timer
import Microboard.Proofs.Ucom4.CallStacks
import Microboard.Proofs.Ucom4.Decimals
import Microboard.Proofs.Sm83.Traffic
import Microboard.Proofs.Ucom4.Clearing
import Microboard.Proofs.CoreRestarting
import Microboard.Proofs.Ucom4.Reduced
import Microboard.Proofs.Units
import Microboard.Proofs.Maps.Histories
import Microboard.Proofs.Maps.RoundTrips
import Microboard.Proofs.CoreOverflows
import Microboard.Proofs.Sm83.Refusing
import Microboard.Proofs.Ucom4.Refusing
import Microboard.Proofs.CoreClocks
import Microboard.Proofs.CoreRefusals
import Microboard.Proofs.LineHistories
import Microboard.Proofs.Sm83.Spelling
import Microboard.Proofs.Ucom4.Rows
import Microboard.Proofs.CoreWaitStates
import Microboard.Proofs.StateValues

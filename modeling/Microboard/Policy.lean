import Microboard.Counter
import Microboard.Fault

/-!
# Common core configuration

Every core is given its clock and, if the host wants to override the habit of the core's family,
what to do with illegal opcodes.
-/

namespace Microboard

/-- What a core does with an opcode that has no defined behaviour. -/
inductive IllegalOpcodePolicy where
  /-- Count it and go on as if it did nothing. -/
  | nop
  /-- Latch a fault and stop. -/
  | fatal
  deriving DecidableEq, Repr

def IllegalOpcodePolicy.describe : IllegalOpcodePolicy → String
  | .nop => "Nop"
  | .fatal => "Fatal"

/-- Configuration that every core takes. -/
structure CoreConfig where
  clockHz : Nat := 1000000
  /-- Overrides the policy of the core's family. -/
  illegalOpcodes : Option IllegalOpcodePolicy := none
  deriving DecidableEq, Repr

namespace CoreConfig

/-- The configured policy, or that of the family. -/
def policyOr (config : CoreConfig) (family : IllegalOpcodePolicy) : IllegalOpcodePolicy :=
  config.illegalOpcodes.getD family

/-- Refuses a stopped clock. -/
def validate (config : CoreConfig) : Except SetupError Unit :=
  if config.clockHz = 0 then
    .error (.invalidParameter "clock_hz" "clock must be non-zero")
  else
    .ok ()

end CoreConfig

end Microboard

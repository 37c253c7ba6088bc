import Mathlib.Tactic.Common
import Mathlib.Data.Int.Notation

/-!
The compile-time settings of the two boards (`constants.h` and the two
board headers), the constants committed for the Rust part
(`rust/src/bindings/constants.rs`), and the error codes of `errors.h`.
-/
namespace Ratfist.Constants

inductive Board
  | stm32f072discovery
  | stm32f411discovery
deriving DecidableEq, Repr

namespace Board

/-- Includes the leading '$' and the trailing CR LF. -/
def bspMaxMessageLength : Board → ℕ
  | .stm32f072discovery => 250
  | .stm32f411discovery => 1000

def maxSpinPlanLegs : Board → ℕ
  | .stm32f072discovery => 20
  | .stm32f411discovery => 100

def msgStructPoolSize : Board → ℕ
  | .stm32f072discovery => 10
  | .stm32f411discovery => 30

def smallSizedMsgPoolSize : Board → ℕ
  | .stm32f072discovery => 10
  | .stm32f411discovery => 30

def spinPlanDataMsgPoolSize : Board → ℕ
  | .stm32f072discovery => 2
  | .stm32f411discovery => 5

def maxOutboundMessages : Board → ℕ
  | .stm32f072discovery => 10
  | .stm32f411discovery => 30

def maxInboundMessages : Board → ℕ
  | .stm32f072discovery => 10
  | .stm32f411discovery => 30

end Board

/-- `constants::MAX_SPIN_PLAN_LEGS` of the Rust part, the same for both boards. -/
def rustMaxSpinPlanLegs : ℕ := 100

/-- The length of `plan_legs` in the Rust part's own `spin_plan_data`. -/
def rustPlanLegs : ℕ := 10

def numChannels : ℕ := 1

def rxChecksumError : ℤ := -1
def messageParsingError : ℤ := -2
def messageFormattingError : ℤ := -3
def memAllocError : ℤ := -4
def messageRoutingError : ℤ := -5
def unknownSubsystemError : ℤ := -6
def unknownMessageTypeError : ℤ := -7
def missingMessageHandlerError : ℤ := -8
def txBufferFull : ℤ := -9
def messageTooLongError : ℤ := -11

end Ratfist.Constants

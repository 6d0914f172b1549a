/-
# Aborts

Mistakes of the program itself, which no request can mend. A step that meets
one gives no result; the wording tells the programmer what to change.
-/
import PageServer.Text.Basic

namespace PageServer

/-- The mistake that ends a step without a result. -/
inductive Abort where
  /-- A cache is to hold nothing. -/
  | noCapacity
  /-- A response is to have a status that is not known. -/
  | unknownStatus
  /-- A page is to describe a status that is not known. -/
  | undescribedStatus (code : Nat)
  /-- Sessions are to last longer than times can tell. -/
  | sessionLength
  /-- There is no greater number left for a new account. -/
  | noFreeNumber
  deriving DecidableEq, Repr

namespace Abort

/-- The wording of a mistake. -/
def message : Abort → Text
  | noCapacity => "调用from_capacity时指定的大小是0。如果需要自动设置大小，请在调用处进行处理，而不是传入0"
  | unknownStatus => "explicit panic"
  | undescribedStatus code => "非法的状态码：" ++ Text.ofNat code
  | sessionLength => "TimeDelta::hours out of bounds"
  | noFreeNumber => "attempt to add with overflow"

end Abort
end PageServer

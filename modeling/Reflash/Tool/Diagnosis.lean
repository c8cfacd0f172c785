import Reflash.Fault
import Reflash.Text.Lowercase
import Reflash.Text.Search

set_option autoImplicit false

/-! # What a tool's output means

Device tools report failures in words. A failure's kind is found by looking for known phrases, in
any case; of several kinds whose phrases occur, the first one in a fixed order is taken. -/

namespace Reflash.Diagnosis

/-- The kinds that words tell apart, with their phrases, the most decisive kind first. -/
def phrases : List (FailureKind × List String) := [
  (.killed, ["killed"]),
  (.lowBattery, ["low battery", "low power", "battery is too low"]),
  (.unlockDisabled,
    ["enable unlocking", "flashing unlock is not allowed", "oem unlock is not allowed"]),
  (.bootloaderLocked, ["bootloader locked", "not allowed in locked state", "device is locked"]),
  (.unauthorized, ["unauthorized"]),
  (.deviceOffline, ["device offline", "error: closed"]),
  (.noDevice,
    ["no devices", "no device", "device not found", "failed to detect compatible"])]

/-- Whether one of the phrases occurs in a text in lower case. -/
def mentions (text : String) (needles : List String) : Bool :=
  needles.any (Text.contains text)

/-- The first kind of a table one of whose phrases occurs in a text in lower case. -/
def firstMentioned (text : String) : List (FailureKind × List String) → FailureKind
  | [] => .generic
  | (kind, needles) :: rest => if mentions text needles then kind else firstMentioned text rest

/-- The kind of the failure that a text reports. -/
def ofText (text : String) : FailureKind :=
  firstMentioned (Text.lowercase text) phrases

end Reflash.Diagnosis

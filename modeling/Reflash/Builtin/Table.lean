import Reflash.Builtin.Devices
import Reflash.Builtin.Files
import Reflash.Builtin.Guide

set_option autoImplicit false

/-! # The built-in actions -/

namespace Reflash.Builtin

variable {σ : Type}

/-- The built-in plugins, in the order of their registration. -/
def plugins : List (String × Verbs σ) :=
  [("core", guideVerbs ++ fileVerbs), ("adb", adbVerbs), ("fastboot", fastbootVerbs),
    ("heimdall", heimdallVerbs), ("systemimage", imageVerbs)]

/-- The table of the built-in actions. -/
def table : ActionTable σ := ⟨plugins⟩

end Reflash.Builtin

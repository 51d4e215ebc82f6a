/-!
# Lifetime settings

The two periods that a configuration document can set, and the keys under which it does.
-/

set_option autoImplicit false

namespace SignedSession

inductive Setting
  /-- How long a token is accepted after it is issued. -/
  | validPeriod
  /-- How long before its expiry a token is due for replacement. -/
  | renewalWindow
deriving DecidableEq

def Setting.key : Setting → String
  | .validPeriod => "valid_period_secs"
  | .renewalWindow => "regen_before_secs"

end SignedSession

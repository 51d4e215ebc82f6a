import SignedSession.Log
import SignedSession.SecretKey

/-!
# Keys from randomness

A source of randomness is asked for a number of bytes and either gives them or says why not.  Its
answer is an argument here, as the time is elsewhere, so what is made of it is a function.
-/

set_option autoImplicit false

namespace SignedSession

/-- The answer of a source of randomness that is asked for `n` bytes. -/
abbrev RandomDraw (n : Nat) : Type := Except String (Bytes n)

namespace RandomDraw

variable {n : Nat}

def bytes (draw : RandomDraw n) : Logged (Bytes n) :=
  match draw with
  | .ok drawn => pure drawn
  | .error text => .fail (.randomSourceUnavailable text) (.randomSourceFailed text)

/-- The base64 text of the bytes drawn, which loads as a key if they are as many as a key has. -/
def keyText (draw : RandomDraw n) : Logged String := do
  let drawn ← draw.bytes
  return Base64.encode drawn.toList

def key (draw : RandomDraw SecretKey.byteLength) : Logged SecretKey := do
  let drawn ← draw.bytes
  return ⟨drawn⟩

end RandomDraw
end SignedSession

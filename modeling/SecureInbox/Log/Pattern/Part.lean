/-!
# Parts of a pattern

Of a part of a pattern that was read two things are kept: how high it is, which
is how deep its parts are nested, and whether it asks for an edge of a word. A
character alone has no height. A part made of several parts is one higher than
the highest of them.
-/

namespace SecureInbox.Pattern

/-- What is kept of a part. -/
structure Part where
  height : Nat := 0
  /-- An edge of a word of Unicode is asked for. -/
  edges : Bool := false
  deriving DecidableEq, Repr

namespace Part

/-- A part with a sign or brackets around it. -/
def wrap (p : Part) : Part := { p with height := p.height + 1 }

/-- Several parts together. One alone is no more than itself, and none have no
    height. -/
def join : List Part → Part
  | [] => {}
  | [part] => part
  | parts => { height := (parts.map (·.height)).foldl max 0 + 1, edges := parts.any (·.edges) }

@[simp] theorem join_nil : join [] = {} := rfl

@[simp] theorem join_singleton (p : Part) : join [p] = p := rfl

end Part

end SecureInbox.Pattern

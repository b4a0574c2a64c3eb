import SecureInbox.Wire

/-!
# Classification

The kind of a message comes from the tag its transport declared, or else from
the lead of its body; whatever has neither is plain.
-/

namespace SecureInbox

/-- Where the kind of a message is taken from. -/
inductive KindSource
  | tagged (tag : Tag)
  | sniffed
  deriving DecidableEq, Repr

/-- The kind of a body. A tag settles it without a look at the body. -/
def KindSource.kindOf : KindSource → String → Kind
  | .tagged tag, _ => tag.kind
  | .sniffed, body => ((Wire.matchLead? body).map (·.1)).getD .plain

/-- The message with its kind settled. -/
def Message.classify (m : Message) (source : KindSource) : Message :=
  m.withKind (source.kindOf m.body)

end SecureInbox

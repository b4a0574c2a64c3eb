import SecureInbox.Bytes

/-!
# Octets

The UTF-8 form of a text. Offsets in error messages count octets, so a text is
decoded through this view: a character of the ASCII range is one octet below
128, and every octet of any other character is at least 128.
-/

namespace SecureInbox.Text

/-- The UTF-8 form of a text. -/
def octets (text : List Char) : Bytes := text.flatMap String.utf8EncodeChar

/-- The text after so many octets, unless they end inside a character. -/
def dropOctets (n : Nat) : List Char → Option (List Char)
  | [] => if n = 0 then some [] else none
  | c :: rest =>
    if n = 0 then some (c :: rest)
    else if c.utf8Size ≤ n then dropOctets (n - c.utf8Size) rest
    else none

/-- The text of so many octets at the start of a text, unless they end inside a
    character. -/
def takeOctets (n : Nat) : List Char → Option (List Char)
  | [] => if n = 0 then some [] else none
  | c :: rest =>
    if n = 0 then some []
    else if c.utf8Size ≤ n then (takeOctets (n - c.utf8Size) rest).map (c :: ·)
    else none

@[simp]
theorem octets_nil : octets [] = [] := rfl

@[simp]
theorem octets_cons (c : Char) (text : List Char) :
    octets (c :: text) = String.utf8EncodeChar c ++ octets text := rfl

@[simp]
theorem octets_append (s t : List Char) : octets (s ++ t) = octets s ++ octets t := by
  simp [octets]

end SecureInbox.Text

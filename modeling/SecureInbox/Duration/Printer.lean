import SecureInbox.Duration.Basic

/-!
# Writing durations

A duration is cut into years, months and days, then hours, minutes, seconds and
the thousandths below. Each unit is written once, the longest first, and left
out when there is none of it: `1year 2months 3days 4h`. Nothing at all is `0s`.
-/

namespace SecureInbox.Duration

/-- The number of each unit in a duration, with its name. The names of the
    three longest take an `s` when there are several. -/
def amounts (d : Duration) : List (Nat × String) :=
  let plural (n : Nat) (name : String) := (n, if n > 1 then name ++ "s" else name)
  let s := d.seconds
  let day := s % 31557600 % 2630016
  let n := d.subseconds
  [plural (s / 31557600) "year", plural (s % 31557600 / 2630016) "month",
    plural (day / 86400) "day", (day % 86400 / 3600, "h"), (day % 86400 % 3600 / 60, "m"),
    (day % 86400 % 60, "s"), (n / 1000000, "ms"), (n / 1000 % 1000, "us"), (n % 1000, "ns")]

/-- One item of the written form. -/
def itemText (item : Nat × String) : List Char := Nat.toDigits 10 item.1 ++ item.2.toList

/-- The items with a blank between any two of them. -/
def spaced : List (List Char) → List Char
  | [] => []
  | [item] => item
  | item :: rest => item ++ ' ' :: spaced rest

/-- The written form of a duration. -/
def render (d : Duration) : List Char :=
  if d.nanoseconds = 0 then ['0', 's']
  else spaced ((d.amounts.filter fun item => item.1 != 0).map itemText)

end SecureInbox.Duration

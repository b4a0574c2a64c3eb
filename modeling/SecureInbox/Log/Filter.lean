import SecureInbox.Log.Directive

/-!
# Log filters

A filter is a list of directives with commas between them. The most verbose
level of all of them bounds what is logged at all; but if a directive asks for
the value of a field, nothing can be left out beforehand.
-/

namespace SecureInbox

/-- A filter of the log. -/
abbrev LogFilter := List LogDirective

namespace LogFilter

/-- The filter in a text. Empty pieces do not count. -/
def parse (text : String) : Except LogFilterError LogFilter :=
  ((Text.pieces ',' text.toList).filter (!·.isEmpty)).mapM LogDirective.ofText

/-- The most verbose level that may be logged. -/
def maxLevel (f : LogFilter) : LogLevel :=
  if f.any fun d => d.fields.any (·.value.isSome) then .trace
  else f.foldl (fun level d => level.max d.level) .off

/-- The filter to use: that of the environment, if there is one and it is well
    formed, or else the one configured. -/
def choose (environment : Option String) (level : String) : Except LogFilterError LogFilter :=
  match environment.filter fun text => !text.toList.all Text.isBlank with
  | some text =>
    match parse text with
    | .ok filter => .ok filter
    | .error _ => parse level
  | none => parse level

end LogFilter

end SecureInbox

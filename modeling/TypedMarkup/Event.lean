/-!
Contract: the events that handlers can be bound to.

Owns: `events`, the list of all events in ascending order, and `eventOf?`, the event that an
attribute binds.
-/

namespace TypedMarkup

def events : List String := [
  "abort", "autocomplete", "autocompleteerror", "blur", "cancel", "canplay", "canplaythrough",
  "change", "click", "close", "contextmenu", "cuechange", "dblclick", "drag", "dragend",
  "dragenter", "dragexit", "dragleave", "dragover", "dragstart", "drop", "durationchange",
  "emptied", "ended", "error", "focus", "input", "invalid", "keydown", "keypress", "keyup",
  "load", "loadeddata", "loadedmetadata", "loadstart", "mousedown", "mouseenter", "mouseleave",
  "mousemove", "mouseout", "mouseover", "mouseup", "mousewheel", "pause", "play", "playing",
  "progress", "ratechange", "reset", "resize", "scroll", "seeked", "seeking", "select", "show",
  "sort", "stalled", "submit", "suspend", "timeupdate", "toggle", "volumechange", "waiting"]

/-- The event that an attribute binds: its name is `on` and then an event. -/
def eventOf? (attributeName : String) : Option String :=
  match attributeName.toList with
  | 'o' :: 'n' :: rest =>
    if events.contains (String.ofList rest) then some (String.ofList rest) else none
  | _ => none

end TypedMarkup

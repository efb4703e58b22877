/-!
Whether a text starts with, ends with or contains another, stated through `<+:`, `<:+` and
`<:+:` of the characters. Texts are ordered by code point.
-/

namespace RecordSearch.Text

def startsWith (text fragment : String) : Bool := fragment.toList.isPrefixOf text.toList

def endsWith (text fragment : String) : Bool := fragment.toList.isSuffixOf text.toList

def occursIn (fragment : List Char) : List Char → Bool
  | [] => fragment.isEmpty
  | c :: rest => fragment.isPrefixOf (c :: rest) || occursIn fragment rest

def contains (text fragment : String) : Bool := occursIn fragment.toList text.toList

theorem startsWith_iff {text fragment : String} :
    startsWith text fragment = true ↔ fragment.toList <+: text.toList := by
  simp [startsWith]

theorem endsWith_iff {text fragment : String} :
    endsWith text fragment = true ↔ fragment.toList <:+ text.toList := by
  simp [endsWith]

theorem occursIn_iff {fragment text : List Char} :
    occursIn fragment text = true ↔ fragment <:+: text := by
  induction text with
  | nil => simp [occursIn, List.isEmpty_iff]
  | cons c rest ih => simp [occursIn, ih, List.infix_cons_iff]

theorem contains_iff {text fragment : String} :
    contains text fragment = true ↔ fragment.toList <:+: text.toList :=
  occursIn_iff

end RecordSearch.Text

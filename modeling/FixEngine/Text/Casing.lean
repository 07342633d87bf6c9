/-!
# Upper case over Latin letters

The full upper-case mapping of Unicode, restricted to the characters whose
upper case consists of ASCII letters.  Those are the ASCII letters, the dotless
`i`, the long `s`, the sharp `s` and seven ligatures.  Every other character
keeps its place, so a text is equal to an ASCII word after this mapping exactly
when it is after the full one.
-/

namespace FixEngine.Casing

def upperChar (c : Char) : List Char :=
  match c with
  | 'ı' => ['I']
  | 'ſ' => ['S']
  | 'ß' => ['S', 'S']
  | 'ﬀ' => ['F', 'F']
  | 'ﬁ' => ['F', 'I']
  | 'ﬂ' => ['F', 'L']
  | 'ﬃ' => ['F', 'F', 'I']
  | 'ﬄ' => ['F', 'F', 'L']
  | 'ﬅ' => ['S', 'T']
  | 'ﬆ' => ['S', 'T']
  | c => [c.toUpper]

def upper (text : String) : String :=
  String.ofList (text.toList.flatMap upperChar)

end FixEngine.Casing

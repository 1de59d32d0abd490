import AmosBasic.Text.Unprinted
import AmosBasic.Numeral

namespace AmosBasic.Quoted

def escape (character : Char) : String :=
  match character with
  | '\x00' => "\\0"
  | '\t' => "\\t"
  | '\n' => "\\n"
  | '\r' => "\\r"
  | '"' => "\\\""
  | '\\' => "\\\\"
  | character =>
    if isUnprinted character then "\\u\x7b" ++ numeral 16 character.toNat ++ "\x7d"
    else character.toString

def quote (text : String) : String :=
  "\"" ++ String.join (text.toList.map escape) ++ "\""

end AmosBasic.Quoted

namespace AmosBasic

/-- The numeral of a number in a base of at most sixteen, lower-case digits, no leading zero. -/
def numeral (base number : Nat) : String :=
  String.ofList (Nat.toDigits base number)

def zeroFilled (width : Nat) (text : String) : String :=
  String.ofList (List.replicate (width - text.length) '0') ++ text

def hexadecimal (number : Nat) : String :=
  "0x" ++ numeral 16 number

def hexadecimalFilled (width number : Nat) : String :=
  "0x" ++ zeroFilled width (numeral 16 number)

end AmosBasic

/-! Hexadecimal numerals: `0x` and lower-case digits, plain or padded to a 32-bit word. -/

namespace PagedMemory.Text

def hexDigits (n : Nat) : List Char := Nat.toDigits 16 n

def hex (n : Nat) : String := "0x" ++ String.ofList (hexDigits n)

def hexWord (n : Nat) : String := "0x" ++ String.ofList ((hexDigits n).leftpad 8 '0')

end PagedMemory.Text

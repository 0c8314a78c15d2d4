import ChipEight.Text.Hex
import ChipEight.Text.Printable

/-! How messages show a text: between quotes. -/

namespace ChipEight.Text

def quoteFor (text : String) : Char :=
  if text.contains '\'' && !text.contains '"' then '"' else '\''

def escape (quote c : Char) : String :=
  if c = quote ∨ c = '\\' then "\\" ++ c.toString
  else if c = '\n' then "\\n"
  else if c = '\r' then "\\r"
  else if c = '\t' then "\\t"
  else if isPrintable c then c.toString
  else if c.toNat < 0x100 then "\\x" ++ Hex.zeroFill 2 (Hex.lower c.toNat)
  else if c.toNat < 0x10000 then "\\u" ++ Hex.zeroFill 4 (Hex.lower c.toNat)
  else "\\U" ++ Hex.zeroFill 8 (Hex.lower c.toNat)

def enclosed (quote : Char) (cs : List Char) : String :=
  quote.toString ++ String.join (cs.map (escape quote)) ++ quote.toString

def quoted (text : String) : String :=
  enclosed (quoteFor text) text.toList

def quotedUpTo (limit : Nat) (text : String) : String :=
  let front := (text.take limit).toString.toList
  String.ofList ((enclosed (quoteFor text) front).toList.take limit)

end ChipEight.Text

import ChipEight.Dyadic

/-! A number of bytes as messages show it. -/

namespace ChipEight.Text

def byteUnits : List String := ["bytes", "KiB", "MiB", "GiB", "TiB", "PiB", "EiB"]

def byteUnit (n : Nat) : Nat :=
  let unit := n.log2 / 10
  if Decimal.nearestQuotient n (Nat.pow 1024 unit) = 1024 then unit + 1 else unit

/-- Three digits of a quotient with a point among or behind them. A quotient of four digits has
them all. -/
def threeDigits (n d : Nat) : String :=
  let hundredths := Decimal.nearestQuotient (100 * n) d
  let tenths := Decimal.nearestQuotient (10 * n) d
  if hundredths < 1000 then
    toString (hundredths / 100) ++ "." ++ toString (hundredths / 10 % 10)
      ++ toString (hundredths % 10)
  else if tenths < 1000 then toString (tenths / 10) ++ "." ++ toString (tenths % 10)
  else toString (Decimal.nearestQuotient n d) ++ "."

def byteCount (bytes : Nat) : String :=
  let n := (Dyadic.nearest bytes 1).truncate.toNat
  let unit := byteUnit n
  let name := byteUnits.getD unit ""
  if unit = 0 then toString n ++ " " ++ name else threeDigits n (Nat.pow 1024 unit) ++ " " ++ name

end ChipEight.Text

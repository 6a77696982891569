import Mathlib.Data.Rat.Floor
import Std.Data.String.ToInt
import HomefrontFiber.Foundation.IsoText

/-!
# Texts as the scripts handle them

The blanks of a pattern, trimming, the printed form of whole numbers and of numbers with a fixed
count of decimals, and padding to a width.
-/

namespace HomefrontFiber.ScriptText

/-- The class `\s` of a pattern. -/
def isSpace (c : Char) : Bool :=
  c.toNat ∈ [9, 10, 11, 12, 13, 32, 160, 5760, 8232, 8233, 8239, 8287, 12288, 65279] ||
    (8192 ≤ c.toNat && c.toNat ≤ 8202)

def trim (text : Text) : Text :=
  ((text.dropWhile isSpace).reverse.dropWhile isSpace).reverse

/-- `String` of a whole number. -/
def decimal (n : Int) : Text := (toString n).toList

theorem decimal_injective : Function.Injective decimal := by
  intro a b h
  exact Int.repr_injective (String.toList_injective h)

def padStart (text : Text) (width : Nat) (c : Char) : Text :=
  List.replicate (width - text.length) c ++ text

/-- `toFixed` of a number, rounded half up away from the sign. Numbers from 10²¹ on are printed as
they are, by `large`. -/
def toFixed (large : Rat → Text) (digits : Nat) (x : Rat) : Text :=
  if 10 ^ 21 ≤ |x| then large x
  else
    let n := (⌊|x| * 10 ^ digits + 1 / 2⌋).toNat
    let m := padStart (decimal n) (digits + 1) '0'
    (if x < 0 then ['-'] else []) ++ m.take (m.length - digits) ++
      (if digits = 0 then [] else '.' :: m.drop (m.length - digits))

example : toFixed (fun _ => []) 4 (-80.55554) = "-80.5555".toList := by decide +kernel

end HomefrontFiber.ScriptText

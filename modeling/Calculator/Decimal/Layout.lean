import Calculator.Decimal.Shortest

/-!
# Layouts of floating numbers

A layout says how the shortest digits of a double are set out: which numbers are written with a
decimal point alone, whether a whole number keeps `.0`, and how an exponent looks.
-/

namespace Calculator.Decimal

structure Layout where
  positional : Option (Int × Int)
  keepPoint : Bool
  plusSign : List Char
  exponentWidth : Nat
  tie : TieRule

/-- How a plain value is shown: `2.0`, `0.0001`, `1e-5`, `1e16`. -/
def Layout.plain : Layout := ⟨some (-4, 15), true, [], 1, .up⟩

/-- How a number reads inside a sentence: always positional, `5` and not `5.0`. -/
def Layout.sentence : Layout := ⟨none, false, [], 1, .up⟩

def positionalChars (keepPoint : Bool) (d : Decimal) : List Char :=
  let ds := digitChars d.digits
  if 0 ≤ d.exponent then
    ds ++ List.replicate d.exponent.toNat '0' ++ (if keepPoint then ['.', '0'] else [])
  else
    let places := (-d.exponent).toNat
    if places < ds.length then
      ds.take (ds.length - places) ++ '.' :: ds.drop (ds.length - places)
    else '0' :: '.' :: List.replicate (places - ds.length) '0' ++ ds

def exponentChars (layout : Layout) (e : Int) : List Char :=
  let ds := digitChars e.natAbs
  let sign := if e < 0 then ['-'] else layout.plusSign
  'e' :: sign ++ List.replicate (layout.exponentWidth - ds.length) '0' ++ ds

def scientificChars (layout : Layout) (d : Decimal) : List Char :=
  let point := match (digitChars d.digits).drop 1 with
    | [] => []
    | rest => '.' :: rest
  (digitChars d.digits).take 1 ++ point ++ exponentChars layout (scientificExponent d)

def chars (layout : Layout) (d : Decimal) : List Char :=
  match layout.positional with
  | none => positionalChars layout.keepPoint d
  | some (least, greatest) =>
    let e := scientificExponent d
    if least ≤ e && e ≤ greatest then positionalChars layout.keepPoint d
    else scientificChars layout d

end Decimal

open Decimal (Layout)

def signChars (negative : Bool) : List Char :=
  if negative then ['-'] else []

def floatChars (layout : Layout) (x : Float) : List Char :=
  match Binary64.ofFloat x with
  | .nan => ['N', 'a', 'N']
  | .infinity negative => signChars negative ++ ['i', 'n', 'f']
  | .finite negative mantissa exponent =>
    signChars negative ++ Decimal.chars layout (Decimal.shortest layout.tie mantissa exponent)

def floatText (layout : Layout) (x : Float) : String :=
  String.ofList (floatChars layout x)

namespace Decimal

def fixedChars (places num den : Nat) : List Char :=
  let ds := digitChars (Binary64.roundDiv (num * 10 ^ places) den)
  let padded := List.replicate (places + 1 - ds.length) '0' ++ ds
  padded.take (padded.length - places) ++ '.' :: padded.drop (padded.length - places)

end Decimal

def floatFixed (places : Nat) (x : Float) : String :=
  match Binary64.ofFloat x with
  | .finite negative mantissa exponent =>
    let (num, den) := Binary64.ratio mantissa exponent
    String.ofList (signChars negative ++ Decimal.fixedChars places num den)
  | _ => floatText Layout.plain x

end Calculator

import ComponentTree.Assoc
import ComponentTree.Value.Basic

/-!
# Equality of values

Numbers are compared by what they denote, whatever their kind, and the truth values count as one and
zero. Sequences are equal when their kinds, lengths and items are; maps when every key of one is a
key of the other with an equal value, in any order; elements when their types, props and children
are. What is no number equals nothing, itself included.

Inside sequences and maps a coarser question is asked, whether two values are *alike*: equal, or one
and the same. The two differ for what is no number, which is like itself. So `alike` is reflexive
where `equal` is not, and it is `alike` by which the keys of maps are compared.
-/

namespace ComponentTree.Value

/-- The exact amount of a finite number, in the units of floating point numbers. -/
def units? : Value → Option Int
  | .bool b => some (if b then Binary64.unitsPerOne else 0)
  | .int n => some (n * Binary64.unitsPerOne)
  | .float x => x.units?
  | _ => none

mutual
/-- Whether two values are equal or one and the same. -/
def alike : Value → Value → Bool
  | .null, other => match other with
    | .null => true
    | _ => false
  | .bool b, other => (bool b).units? == other.units?
  | .int n, other => (int n).units? == other.units?
  | .float x, other => match other with
    | .float y => x.alike y
    | _ => x.isFinite && x.units? == other.units?
  | .str s, other => match other with
    | .str t => s == t
    | _ => false
  | .broken s, other => match other with
    | .broken t => s == t
    | _ => false
  | .list xs, other => match other with
    | .list ys => alikeItems xs ys
    | _ => false
  | .tuple xs, other => match other with
    | .tuple ys => alikeItems xs ys
    | _ => false
  | .dict _ es, other => match other with
    | .dict _ fs => es.length == fs.length && alikeEntries es fs
    | _ => false
  | .element t ps cs, other => match other with
    | .element t' ps' cs' =>
      alike t t' && ps.length == ps'.length && alikeEntries ps ps' && alikeItems cs cs'
    | _ => false
  | .fragment, other => match other with
    | .fragment => true
    | _ => false
  | .component c, other => match other with
    | .component d => c.serial == d.serial
    | _ => false

/-- Whether the items of sequences are alike, one by one. -/
def alikeItems : List Value → List Value → Bool
  | [], ys => ys.isEmpty
  | x :: xs, ys => match ys with
    | [] => false
    | y :: ys => alike x y && alikeItems xs ys

/-- Whether every entry of a map is found in another one, with a value alike. -/
def alikeEntries : List (Value × Value) → List (Value × Value) → Bool
  | [], _ => true
  | (k, v) :: es, fs =>
    ((fs.find? fun entry => alike k entry.1).elim false fun entry => alike v entry.2) &&
      alikeEntries es fs
end

instance : BEq Value := ⟨alike⟩

/-- Equality of values. Neither what is no number nor an element with such a type equals itself. -/
def equal : Value → Value → Bool
  | .float x, .float y => x.equal y
  | .element t ps cs, .element t' ps' cs' =>
    equal t t' && ps.length == ps'.length && alikeEntries ps ps' && alikeItems cs cs'
  | x, y => alike x y

/-- Inequality of values. An element takes back the answer that it gives to an element, and differs
from all that is none, as that differs from it. -/
def unequal : Value → Value → Bool
  | .element t ps cs, .element t' ps' cs' => !equal (.element t ps cs) (.element t' ps' cs')
  | .element .., _ => true
  | _, .element .. => true
  | x, y => !equal x y

end ComponentTree.Value

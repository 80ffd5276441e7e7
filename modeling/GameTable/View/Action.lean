import GameTable.Compendium
import GameTable.Text.Blank

/-!
# Actions as formulas see them

The parameters of a command, completed by the weapon that they name. What a parameter gives wins
over what the weapon gives, and null counts as not given. With an off hand the dice lose a final
bonus.
-/

namespace GameTable

/-- The parts of a text before and after the last occurrence of a character. -/
def Text.splitAtLast (c : Char) (cs : List Char) : Option (List Char × List Char) :=
  let after := cs.reverse.takeWhile (· != c)
  match cs.reverse.dropWhile (· != c) with
  | [] => none
  | _ :: before => some (before.reverse, after.reverse)

namespace Action

/-- Whether a parameter is switched on. -/
def flag : Option Value → Bool
  | some (.bool b) => b
  | some (.str s) => Text.lowerAscii s ∈ ["true", "yes", "1"]
  | some (.int n) => n != 0
  | _ => false

/-- Dice without the number that is added at the end. -/
def stripModifier (dice : String) : String :=
  match Text.splitAtLast '+' dice.toList with
  | some (head, tail) =>
    let bonus := Text.trimChars tail
    if (Text.trimChars head).isEmpty || bonus.isEmpty || !bonus.all Char.isDigit then dice
    else .ofList (Text.dropTrailing head)
  | none => dice

/-- What the parameters give, or else the weapon; null is not given. -/
def pick (params : Dict Value) (weapon : Value) (key : String) (default : Value) : Value :=
  let given := fun (v : Option Value) => v.filter fun v => !v.isNull
  ((given (params.get? key)).or (given (weapon.get? key))).getD default

/-- An integer where the value has one, and the value itself otherwise. -/
def asInteger (v : Value) : Value := (v.toInt?.map .int).getD v

/-- The parameters completed by the weapon. -/
def normalize (compendium : Compendium) (params : Dict Value) : Dict Value :=
  let weapon := (params.get? "weapon").getD .null
  let resolved := (weapon.str?.bind compendium.weapon?).getD .null
  let pick := pick params resolved
  let offhand := flag (params.get? "offhand")
  let dice := match pick "dice" (.str "") with
    | .str s => .str (if offhand then stripModifier s else s)
    | v => v
  params
    |>.insert "weapon" weapon
    |>.insert "weapon_resolved" resolved
    |>.insert "bonus" (asInteger (pick "bonus" (.int 0)))
    |>.insert "recharge" (pick "recharge" .null)
    |>.insert "dice" dice
    |>.insert "type" (pick "type" (.str ""))
    |>.insert "offhand" (.bool offhand)
    |>.insert "opportunity" (.bool (flag (params.get? "opportunity")))

example : stripModifier "1d8 + 2" = "1d8" ∧ stripModifier "1d8+1d4" = "1d8+1d4" := by
  decide +kernel

end Action

end GameTable

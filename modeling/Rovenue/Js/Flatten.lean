import Rovenue.Js.Json

/-! A value as a record of dotted paths, each with the text of what stands there. -/

namespace Rovenue.Js
open Txn (Table)

def backslash : Char := '\x5c'
def quotationMark : Char := '\x22'

def hexDigit (n : ℕ) : Char := if n < 10 then Char.ofNat (0x30 + n) else Char.ofNat (0x57 + n)

def shortEscapes : List (ℕ × Char) := [(0x08, 'b'), (0x09, 't'), (0x0a, 'n'), (0x0c, 'f'), (0x0d, 'r')]

def escapeChar (c : Char) : List Char :=
  if c = quotationMark ∨ c = backslash then [backslash, c]
  else if c.toNat < 0x20 then
    match shortEscapes.lookup c.toNat with
    | some letter => [backslash, letter]
    | none => [backslash, 'u', '0', '0', hexDigit (c.toNat / 16), hexDigit (c.toNat % 16)]
  else [c]

def quote (s : String) : String :=
  String.ofList (quotationMark :: (s.toList.flatMap escapeChar ++ [quotationMark]))

def unescapeChar : List Char → Option (Char × List Char)
  | [] => none
  | c :: rest =>
    if c ≠ backslash then some (c, rest) else
    match rest with
    | 'u' :: _ :: _ :: high :: low :: rest =>
      let digit (h : Char) : ℕ := if h.isDigit then h.toNat - 0x30 else h.toNat - 0x57
      some (Char.ofNat (16 * digit high + digit low), rest)
    | letter :: rest =>
      some (((shortEscapes.find? fun e => e.2 = letter).map fun e => Char.ofNat e.1).getD letter, rest)
    | [] => none

theorem unescapeChar_escapeChar (c : Char) (rest : List Char) :
    unescapeChar (escapeChar c ++ rest) = some (c, rest) := by
  by_cases hquoted : c = quotationMark ∨ c = backslash
  · rw [escapeChar, if_pos hquoted]
    rcases hquoted with rfl | rfl <;> rfl
  · by_cases hcontrol : c.toNat < 0x20
    · have hall : ∀ n < 0x20, unescapeChar (escapeChar (Char.ofNat n) ++ rest)
          = some (Char.ofNat n, rest) := by
        intro n hn
        interval_cases n <;> rfl
      have hc := hall c.toNat hcontrol
      rwa [Char.ofNat_toNat] at hc
    · rw [escapeChar, if_neg hquoted, if_neg hcontrol]
      rw [not_or] at hquoted
      simp [unescapeChar, hquoted.2]

theorem flatMap_escapeChar_inj {cs ds : List Char}
    (h : cs.flatMap escapeChar = ds.flatMap escapeChar) : cs = ds := by
  induction cs generalizing ds with
  | nil =>
    cases ds with
    | nil => rfl
    | cons d ds =>
      have hd := unescapeChar_escapeChar d (ds.flatMap escapeChar)
      rw [← List.flatMap_cons, ← h] at hd
      cases hd
  | cons c cs ih =>
    have hc := unescapeChar_escapeChar c (cs.flatMap escapeChar)
    rw [← List.flatMap_cons, h] at hc
    cases ds with
    | nil => cases hc
    | cons d ds =>
      rw [List.flatMap_cons, unescapeChar_escapeChar, Option.some_inj, Prod.mk.injEq] at hc
      rw [← hc.1, ih hc.2.symm]

theorem quote_injective {s t : String} (h : quote s = quote t) : s = t := by
  have hchars := congrArg String.toList h
  rw [quote, quote, String.toList_ofList, String.toList_ofList, List.cons_eq_cons] at hchars
  have hinner := List.append_cancel_right hchars.2
  exact String.toList_inj.1 (flatMap_escapeChar_inj hinner)

def stringify : Json → String
  -- `JSON.stringify` of a value without parts, and of an empty list or record
  | .null => "null"
  | .bool b => toString b
  | .num x => x.toText
  | .str s => quote s
  | .arr _ => "[]"
  | .obj _ => "\x7b\x7d"

def joinPath (path name : String) : String := if path = "" then name else path ++ "." ++ name

def indexPath (path : String) (i : ℕ) : String := path ++ "[" ++ toString i ++ "]"

mutual

def flatten (path : String) : Json → List (String × String)
  | .arr (e :: es) => flatten (indexPath path 0) e ++ flattenElements path 1 es
  | .obj ((name, value) :: fields) =>
    flatten (joinPath path name) value ++ flattenFields path fields
  | .null => [(path, stringify .null)]
  | .bool b => [(path, stringify (.bool b))]
  | .num x => [(path, stringify (.num x))]
  | .str s => [(path, stringify (.str s))]
  | .arr [] => [(path, stringify (.arr []))]
  | .obj [] => [(path, stringify (.obj []))]

def flattenElements (path : String) (i : ℕ) : List Json → List (String × String)
  | [] => []
  | e :: es => flatten (indexPath path i) e ++ flattenElements path (i + 1) es

def flattenFields (path : String) : List (String × Json) → List (String × String)
  | [] => []
  | (name, value) :: fields => flatten (joinPath path name) value ++ flattenFields path fields

end

mutual

def Json.same : Json → Json → Prop
  | .null, .null => True
  | .bool a, .bool b => a = b
  | .num a, .num b => a = b
  | .str a, .str b => a = b
  | .arr as, .arr bs => Json.sameElements as bs
  | .obj as, .obj bs => Json.sameFields as bs ∧ ∀ name ∈ bs.map Prod.fst, name ∈ as.map Prod.fst
  | _, _ => False

def Json.sameElements : List Json → List Json → Prop
  | [], [] => True
  | a :: as, b :: bs => Json.same a b ∧ Json.sameElements as bs
  | _, _ => False

def Json.sameFields : List (String × Json) → List (String × Json) → Prop
  | [], _ => True
  | (name, a) :: as, bs => (∃ b, bs.lookup name = some b ∧ Json.same a b) ∧ Json.sameFields as bs

end

end Rovenue.Js

import Rovenue.Js.Paths

/-! The audience rules that may be stored: `validateAudienceRules` accepts exactly the documents that
are small, shallow and free of other operators at every depth. -/

namespace Rovenue.Targeting
open Js

def ALLOWED_OPERATORS : List String :=
  ["$eq", "$ne", "$gt", "$gte", "$lt", "$lte", "$in", "$nin", "$exists", "$and", "$or", "$nor",
    "$not", "$all", "$size"]

def MAX_DEPTH : ℕ := 8

def MAX_NODES : ℕ := 256

def MAX_ARRAY_LEN : ℕ := 500

def depthError : String := "Audience rules exceed max depth (" ++ toString MAX_DEPTH ++ ")"

def nodeCountError : String := "Audience rules exceed max node count (" ++ toString MAX_NODES ++ ")"

def arrayError : String := "Audience rules array exceeds " ++ toString MAX_ARRAY_LEN ++ " items"

def operatorError (key : String) : String := "Operator " ++ key ++ " is not allowed"

def enter (depth nodeCount : ℕ) : Except String ℕ :=
  if MAX_DEPTH < depth then .error depthError
  else if MAX_NODES < nodeCount + 1 then .error nodeCountError
  else .ok (nodeCount + 1)

mutual

def walk : Json → ℕ → ℕ → Except String ℕ
  | .arr es, depth, nodeCount => do
    let entered ← enter depth nodeCount
    if MAX_ARRAY_LEN < es.length then .error arrayError else walkItems es (depth + 1) entered
  | .obj fields, depth, nodeCount => do
    let entered ← enter depth nodeCount
    walkEntries fields (depth + 1) entered
  | _, depth, nodeCount => enter depth nodeCount

def walkItems : List Json → ℕ → ℕ → Except String ℕ
  | [], _, nodeCount => .ok nodeCount
  | e :: es, depth, nodeCount => do
    let walked ← walk e depth nodeCount
    walkItems es depth walked

def walkEntries : List (String × Json) → ℕ → ℕ → Except String ℕ
  | [], _, nodeCount => .ok nodeCount
  | (key, v) :: fields, depth, nodeCount =>
    if key.startsWith "$" && !ALLOWED_OPERATORS.contains key then .error (operatorError key)
    else do
      let walked ← walk v depth nodeCount
      walkEntries fields depth walked

end

def validateAudienceRules : Option Json → Except String Unit
  | none => .ok ()
  | some .null => .ok ()
  | some (.obj fields) => (walk (.obj fields) 0 0).map fun _ => ()
  | some _ => .error "Audience rules must be a JSON object"

mutual

def nodes : Json → ℕ
  | .arr es => nodesOfItems es + 1
  | .obj fields => nodesOfEntries fields + 1
  | _ => 1

def nodesOfItems : List Json → ℕ
  | [] => 0
  | e :: es => nodes e + nodesOfItems es

def nodesOfEntries : List (String × Json) → ℕ
  | [] => 0
  | (_, v) :: fields => nodes v + nodesOfEntries fields

end

/-- A value in a document, and how deep. -/
inductive Occurs : Json → ℕ → Json → Prop where
  | here (v : Json) : Occurs v 0 v
  | item {es : List Json} {e u : Json} {d : ℕ} : e ∈ es → Occurs e d u → Occurs (.arr es) (d + 1) u
  | entry {fields : List (String × Json)} {f : String × Json} {u : Json} {d : ℕ} :
      f ∈ fields → Occurs f.2 d u → Occurs (.obj fields) (d + 1) u

/-- What is asked of a single value. -/
def Proper : Json → Prop
  | .arr es => es.length ≤ MAX_ARRAY_LEN
  | .obj fields => ∀ f ∈ fields, f.1.startsWith "$" = true → f.1 ∈ ALLOWED_OPERATORS
  | _ => True

/-- Every value of the document is proper, and none lies too deep below `depth`. -/
def Shallow (v : Json) (depth : ℕ) : Prop := ∀ d u, Occurs v d u → depth + d ≤ MAX_DEPTH ∧ Proper u

theorem enter_eq_ok {depth n m : ℕ} :
    enter depth n = .ok m ↔ depth ≤ MAX_DEPTH ∧ n + 1 ≤ MAX_NODES ∧ m = n + 1 := by
  rw [enter]
  split_ifs with hdepth hnodes
  · simp [hdepth.not_ge]
  · simp [hnodes.not_ge]
  · simp [not_lt.1 hdepth, not_lt.1 hnodes, eq_comm]

theorem shallow_arr {es : List Json} {depth : ℕ} :
    Shallow (.arr es) depth ↔ depth ≤ MAX_DEPTH ∧ es.length ≤ MAX_ARRAY_LEN ∧
      ∀ e ∈ es, Shallow e (depth + 1) := by
  constructor
  · intro h
    have hhere := h 0 _ (.here _)
    refine ⟨hhere.1, hhere.2, fun e he d u hu => ?_⟩
    obtain ⟨hdeep, hproper⟩ := h (d + 1) u (.item he hu)
    exact ⟨by omega, hproper⟩
  · rintro ⟨hdepth, hlength, hitems⟩ d u hu
    cases hu with
    | here => exact ⟨hdepth, hlength⟩
    | item he hu =>
      obtain ⟨hdeep, hproper⟩ := hitems _ he _ u hu
      exact ⟨by omega, hproper⟩

theorem shallow_obj {fields : List (String × Json)} {depth : ℕ} :
    Shallow (.obj fields) depth ↔ depth ≤ MAX_DEPTH ∧ ∀ f ∈ fields,
      (f.1.startsWith "$" = true → f.1 ∈ ALLOWED_OPERATORS) ∧ Shallow f.2 (depth + 1) := by
  constructor
  · intro h
    have hhere := h 0 _ (.here _)
    refine ⟨hhere.1, fun f hf => ⟨hhere.2 f hf, fun d u hu => ?_⟩⟩
    obtain ⟨hdeep, hproper⟩ := h (d + 1) u (.entry hf hu)
    exact ⟨by omega, hproper⟩
  · rintro ⟨hdepth, hfields⟩ d u hu
    cases hu with
    | here => exact ⟨hdepth, fun f hf => (hfields f hf).1⟩
    | entry hf hu =>
      obtain ⟨hdeep, hproper⟩ := (hfields _ hf).2 _ u hu
      exact ⟨by omega, hproper⟩

theorem bind_eq_ok {x : Except String ℕ} {f : ℕ → Except String ℕ} {m : ℕ} :
    (x >>= f) = .ok m ↔ ∃ n, x = .ok n ∧ f n = .ok m := by
  rcases x with message | n
  · simp [bind, Except.bind]
  · simp [bind, Except.bind]

def Walked (v : Json) : Prop :=
  ∀ depth n m, walk v depth n = .ok m ↔
    Shallow v depth ∧ n + nodes v ≤ MAX_NODES ∧ m = n + nodes v

theorem walkItems_eq_ok {es : List Json} (hes : ∀ e ∈ es, Walked e) {depth n m : ℕ}
    (hn : n ≤ MAX_NODES) : walkItems es depth n = .ok m ↔
      (∀ e ∈ es, Shallow e depth) ∧ n + nodesOfItems es ≤ MAX_NODES ∧ m = n + nodesOfItems es := by
  induction es generalizing n with
  | nil =>
    rw [walkItems, nodesOfItems]
    constructor
    · intro hok
      obtain rfl := Except.ok.inj hok
      exact ⟨fun e he => (List.not_mem_nil he).elim, hn, rfl⟩
    · rintro ⟨-, -, rfl⟩
      rfl
  | cons e es ih =>
    obtain ⟨he, hrest⟩ := List.forall_mem_cons.1 hes
    rw [walkItems, bind_eq_ok, List.forall_mem_cons, nodesOfItems]
    constructor
    · rintro ⟨k, hk, hm⟩
      obtain ⟨hshallow, hroom, rfl⟩ := (he depth n k).1 hk
      obtain ⟨hothers, hroom', rfl⟩ := (ih hrest hroom).1 hm
      exact ⟨⟨hshallow, hothers⟩, by omega, by omega⟩
    · rintro ⟨⟨hshallow, hothers⟩, hroom, rfl⟩
      refine ⟨n + nodes e, (he depth n _).2 ⟨hshallow, by omega, rfl⟩, ?_⟩
      exact (ih hrest (by omega)).2 ⟨hothers, by omega, by omega⟩

theorem walkEntries_eq_ok {fields : List (String × Json)} (hfields : ∀ f ∈ fields, Walked f.2)
    {depth n m : ℕ} (hn : n ≤ MAX_NODES) : walkEntries fields depth n = .ok m ↔
      (∀ f ∈ fields, (f.1.startsWith "$" = true → f.1 ∈ ALLOWED_OPERATORS) ∧ Shallow f.2 depth) ∧
        n + nodesOfEntries fields ≤ MAX_NODES ∧ m = n + nodesOfEntries fields := by
  induction fields generalizing n with
  | nil =>
    rw [walkEntries, nodesOfEntries]
    constructor
    · intro hok
      obtain rfl := Except.ok.inj hok
      exact ⟨fun f hf => (List.not_mem_nil hf).elim, hn, rfl⟩
    · rintro ⟨-, -, rfl⟩
      rfl
  | cons f fields ih =>
    obtain ⟨key, v⟩ := f
    obtain ⟨hvalue, hrest⟩ := List.forall_mem_cons.1 hfields
    have hv : Walked v := hvalue
    rw [walkEntries, List.forall_mem_cons, nodesOfEntries]
    split_ifs with hkey
    · rw [Bool.and_eq_true, Bool.not_eq_true', List.contains_eq_mem, decide_eq_false_iff_not] at hkey
      constructor
      · intro herror
        cases herror
      · rintro ⟨⟨⟨hallowed, -⟩, -⟩, -⟩
        exact absurd (hallowed hkey.1) hkey.2
    · have hallowed : key.startsWith "$" = true → key ∈ ALLOWED_OPERATORS := by
        intro hdollar
        by_contra hnot
        refine hkey ?_
        simp [hdollar, hnot]
      rw [bind_eq_ok]
      constructor
      · rintro ⟨k, hk, hm⟩
        obtain ⟨hshallow, hroom, rfl⟩ := (hv depth n k).1 hk
        obtain ⟨hothers, hroom', rfl⟩ := (ih hrest hroom).1 hm
        exact ⟨⟨⟨hallowed, hshallow⟩, hothers⟩, by omega, by omega⟩
      · rintro ⟨⟨⟨-, hshallow⟩, hothers⟩, hroom, rfl⟩
        refine ⟨n + nodes v, (hv depth n _).2 ⟨hshallow, by omega, rfl⟩, ?_⟩
        exact (ih hrest (by omega)).2 ⟨hothers, by omega, by omega⟩

theorem walked_arr {es : List Json} (hes : ∀ e ∈ es, Walked e) : Walked (.arr es) := by
  intro depth n m
  rw [walk, bind_eq_ok, shallow_arr, nodes]
  constructor
  · rintro ⟨k, hk, hm⟩
    obtain ⟨hdepth, hroom, rfl⟩ := enter_eq_ok.1 hk
    split_ifs at hm with hlength
    obtain ⟨hitems, hroom', rfl⟩ := (walkItems_eq_ok hes hroom).1 hm
    exact ⟨⟨hdepth, not_lt.1 hlength, hitems⟩, by omega, by omega⟩
  · rintro ⟨⟨hdepth, hlength, hitems⟩, hroom, rfl⟩
    refine ⟨n + 1, enter_eq_ok.2 ⟨hdepth, by omega, rfl⟩, ?_⟩
    rw [if_neg hlength.not_gt]
    exact (walkItems_eq_ok hes (by omega)).2 ⟨hitems, by omega, by omega⟩

theorem walked_obj {fields : List (String × Json)} (hfields : ∀ f ∈ fields, Walked f.2) :
    Walked (.obj fields) := by
  intro depth n m
  rw [walk, bind_eq_ok, shallow_obj, nodes]
  constructor
  · rintro ⟨k, hk, hm⟩
    obtain ⟨hdepth, hroom, rfl⟩ := enter_eq_ok.1 hk
    obtain ⟨hentries, hroom', rfl⟩ := (walkEntries_eq_ok hfields hroom).1 hm
    exact ⟨⟨hdepth, hentries⟩, by omega, by omega⟩
  · rintro ⟨⟨hdepth, hentries⟩, hroom, rfl⟩
    refine ⟨n + 1, enter_eq_ok.2 ⟨hdepth, by omega, rfl⟩, ?_⟩
    exact (walkEntries_eq_ok hfields (by omega)).2 ⟨hentries, by omega, by omega⟩

theorem walked_leaf {v : Json} (hwalk : ∀ depth n, walk v depth n = enter depth n)
    (hnodes : nodes v = 1) (hproper : Proper v) (honly : ∀ d u, Occurs v d u → d = 0 ∧ u = v) :
    Walked v := by
  intro depth n m
  rw [hwalk, enter_eq_ok, hnodes]
  refine and_congr_left fun _ => ⟨fun hdepth d u hu => ?_, fun h => (h 0 v (.here v)).1⟩
  obtain ⟨rfl, rfl⟩ := honly d u hu
  exact ⟨hdepth, hproper⟩

theorem walked : (v : Json) → Walked v
  | .null => walked_leaf (fun _ _ => rfl) rfl trivial fun _ _ hu => by cases hu; exact ⟨rfl, rfl⟩
  | .bool _ => walked_leaf (fun _ _ => rfl) rfl trivial fun _ _ hu => by cases hu; exact ⟨rfl, rfl⟩
  | .num _ => walked_leaf (fun _ _ => rfl) rfl trivial fun _ _ hu => by cases hu; exact ⟨rfl, rfl⟩
  | .str _ => walked_leaf (fun _ _ => rfl) rfl trivial fun _ _ hu => by cases hu; exact ⟨rfl, rfl⟩
  | .arr es => walked_arr fun e he => walked e
  | .obj fields => walked_obj fun f hf => walked f.2
termination_by v => sizeOf v
decreasing_by
  · have hlt := List.sizeOf_lt_of_mem he
    simp_wf
    omega
  · have hlt := List.sizeOf_lt_of_mem hf
    obtain ⟨name, value⟩ := f
    simp only [Prod.mk.sizeOf_spec] at hlt
    simp_wf
    omega

/-- The documents that may be stored: at most `MAX_NODES` values, none deeper than `MAX_DEPTH`, no
array longer than `MAX_ARRAY_LEN`, and no operator at any depth but those of the list. -/
theorem validateAudienceRules_ok_iff (rules : Option Json) :
    validateAudienceRules rules = .ok () ↔
      rules = none ∨ rules = some .null ∨ ∃ fields, rules = some (.obj fields) ∧
        nodes (.obj fields) ≤ MAX_NODES ∧
        ∀ d u, Occurs (.obj fields) d u → d ≤ MAX_DEPTH ∧ Proper u := by
  have hobj : ∀ fields, validateAudienceRules (some (.obj fields)) = .ok () ↔
      nodes (.obj fields) ≤ MAX_NODES ∧
        ∀ d u, Occurs (.obj fields) d u → d ≤ MAX_DEPTH ∧ Proper u := by
    intro fields
    have hwalk := walked (.obj fields) 0 0
    simp only [Nat.zero_add, Shallow] at hwalk
    rw [validateAudienceRules]
    constructor
    · intro hok
      rcases hresult : walk (.obj fields) 0 0 with message | m
      · rw [hresult] at hok
        cases hok
      · obtain ⟨hshallow, hroom, -⟩ := (hwalk m).1 hresult
        exact ⟨hroom, hshallow⟩
    · rintro ⟨hroom, hshallow⟩
      rw [(hwalk _).2 ⟨hshallow, hroom, rfl⟩]
      rfl
  rcases rules with _ | v
  · simp [validateAudienceRules]
  · cases v with
    | null => simp [validateAudienceRules]
    | obj fields => simp [hobj fields]
    | _ => simp [validateAudienceRules]

example : (walk (.obj [("$and", .arr [.obj [("country", .obj [("$regex", .str "^T")])]])]) 0 0).toOption =
    none := by decide +kernel

end Rovenue.Targeting

import ConveneWire.Contracts.ExecutionJson

/-! # What the Go resource bounds accept

`bridgeJSONWithinResourceBounds` walks over tokens with a stack of open
containers. On the tokens of a document it accepts exactly when the document has
few enough values and numbers, is not too deep, repeats no name and spells no
number too long. -/

namespace ConveneWire.Contracts.ExecutionRuntime

open Json
open BoundsState

mutual

/-- All values of a document, names not counted. -/
def nodes : Doc → Nat
  | .array items => 1 + itemNodes items
  | .object ms => 1 + memberNodes ms
  | .null | .bool _ | .number _ | .string _ => 1

def itemNodes : List Doc → Nat
  | [] => 0
  | d :: ds => nodes d + itemNodes ds

def memberNodes : List (List StrItem × Doc) → Nat
  | [] => 0
  | (_, d) :: ms => nodes d + memberNodes ms

end

mutual

def numbers : Doc → Nat
  | .array items => itemNumbers items
  | .object ms => memberNumbers ms
  | .number _ => 1
  | .null | .bool _ | .string _ => 0

def itemNumbers : List Doc → Nat
  | [] => 0
  | d :: ds => numbers d + itemNumbers ds

def memberNumbers : List (List StrItem × Doc) → Nat
  | [] => 0
  | (_, d) :: ms => numbers d + memberNumbers ms

end

mutual

/-- How many values are nested in one another, the innermost included. -/
def height : Doc → Nat
  | .array items => 1 + itemsHeight items
  | .object ms => 1 + membersHeight ms
  | .null | .bool _ | .number _ | .string _ => 1

def itemsHeight : List Doc → Nat
  | [] => 0
  | d :: ds => max (height d) (itemsHeight ds)

def membersHeight : List (List StrItem × Doc) → Nat
  | [] => 0
  | (_, d) :: ms => max (height d) (membersHeight ms)

end

mutual

/-- No object repeats a decoded name, and every number is short enough. -/
def Tidy : Doc → Prop
  | .array items => ItemsTidy items
  | .object ms => (ms.map fun m => runes m.1).Nodup ∧ MembersTidy ms
  | .number lit => jsonNumberWithinResourceBounds lit = true
  | .null | .bool _ | .string _ => True

def ItemsTidy : List Doc → Prop
  | [] => True
  | d :: ds => Tidy d ∧ ItemsTidy ds

def MembersTidy : List (List StrItem × Doc) → Prop
  | [] => True
  | (_, d) :: ms => Tidy d ∧ MembersTidy ms

end

/-! ## The token machine -/

variable {s : BoundsState}

namespace BoundsState

/-- The totals never pass their limits on the way. -/
structure Within (s : BoundsState) : Prop where
  nodes : s.totalNodes ≤ maxJSONTotalNodes
  numbers : s.numberCount ≤ maxJSONNumbers
  depth : s.containers.length ≤ maxJSONDepth

/-- The next token starts a value, not a name. -/
def ExpectsValue (s : BoundsState) : Prop :=
  ∀ parent outer, s.containers = parent :: outer →
    ¬ (parent.object = true ∧ parent.expectingKey = true)

/-- The state after a value that was let in. -/
def after (s : BoundsState) (nodes numbers : Nat) : BoundsState :=
  { s with totalNodes := s.totalNodes + nodes, numberCount := s.numberCount + numbers }

theorem enter_length (s : BoundsState) : s.enter.containers.length = s.containers.length := by
  unfold enter
  split
  · rfl
  · rename_i parent outer heq
    split <;> simp [heq]

theorem enter_totals (s : BoundsState) :
    s.enter.totalNodes = s.totalNodes ∧ s.enter.numberCount = s.numberCount := by
  unfold enter
  split
  · exact ⟨rfl, rfl⟩
  · split <;> exact ⟨rfl, rfl⟩

/-- A token that starts a value is counted where a value is expected. -/
theorem step_value (h : s.ExpectsValue) (token : Token) (hobject : token ≠ .closeObject)
    (harray : token ≠ .closeArray) : s.step token = s.enter.admit token := by
  unfold step
  split
  · exact absurd rfl hobject
  · exact absurd rfl harray
  split
  · rename_i heq
    rw [if_neg (h _ _ heq)]
  · rfl

end BoundsState

/-- What a document needs of a state to be let in. -/
structure Fits (s : BoundsState) (nodes numbers height : Nat) (tidy : Prop) : Prop where
  nodes : s.totalNodes + nodes ≤ maxJSONTotalNodes
  numbers : s.numberCount + numbers ≤ maxJSONNumbers
  height : s.containers.length + height ≤ maxJSONDepth
  tidy : tidy

def run (s : BoundsState) (stream : List Token) : Option BoundsState :=
  stream.foldlM BoundsState.step s

variable {s t : BoundsState} {token : Token}

@[simp] theorem run_nil : run s [] = some s := rfl

@[simp] theorem run_cons {stream : List Token} :
    run s (token :: stream) = (s.step token).bind fun t => run t stream := rfl

theorem run_append {first second : List Token} :
    run s (first ++ second) = (run s first).bind fun t => run t second := by
  simp only [run, List.foldlM_append, Option.bind_eq_bind]

/-- The machine on one value. -/
def RunsValue (d : Doc) : Prop :=
  ∀ s t : BoundsState, s.Within → s.ExpectsValue →
    (run s (tokens d) = some t ↔
      Fits s (nodes d) (numbers d) (height d) (Tidy d) ∧
        t = s.enter.after (nodes d) (numbers d))

section Fits

variable {s t : BoundsState} {n k h n' k' h' : Nat} {p q : Prop}

/-- A value after another has what that one left. -/
theorem Fits.append : Fits s (n + n') (k + k') (max h h') (p ∧ q) ↔
    Fits s n k h p ∧ Fits (s.after n k) n' k' h' q := by
  constructor
  · rintro ⟨hn, hk, hh, hp, hq⟩
    exact ⟨⟨by omega, by omega, by omega, hp⟩, show s.totalNodes + n + n' ≤ _ by omega,
      show s.numberCount + k + k' ≤ _ by omega, show s.containers.length + h' ≤ _ by omega, hq⟩
  · rintro ⟨⟨hn, hk, hh, hp⟩, hn', hk', hh', hq⟩
    dsimp only [after] at hn' hk' hh'
    exact ⟨by omega, by omega, by omega, hp, hq⟩

theorem Fits.of_size (hn : t.totalNodes = s.totalNodes) (hk : t.numberCount = s.numberCount)
    (hl : t.containers.length = s.containers.length) : Fits t n k h p ↔ Fits s n k h p := by
  constructor
  · rintro ⟨hnodes, hnumbers, hheight, hp⟩
    exact ⟨by omega, by omega, by omega, hp⟩
  · rintro ⟨hnodes, hnumbers, hheight, hp⟩
    exact ⟨by omega, by omega, by omega, hp⟩

theorem Fits.within (hfits : Fits s n k h p) (hs : s.Within) : (s.after n k).Within :=
  ⟨hfits.nodes, hfits.numbers, hs.depth⟩

theorem after_after : (s.after n k).after n' k' = s.after (n + n') (k + k') := by
  simp only [after, Nat.add_assoc]

end Fits

theorem runs_items {items : List Doc} (h : ∀ d ∈ items, RunsValue d) :
    ∀ (s t : BoundsState) (outer : List JsonContainerState), s.Within →
      s.containers = ⟨false, false, []⟩ :: outer → (run s (itemTokens items) = some t ↔
        Fits s (itemNodes items) (itemNumbers items) (itemsHeight items) (ItemsTidy items) ∧
          t = s.after (itemNodes items) (itemNumbers items)) := by
  induction items with
  | nil =>
    intro s t outer hs _
    simp only [itemTokens, run_nil, Option.some.injEq, itemNodes, itemNumbers, itemsHeight,
      ItemsTidy]
    constructor
    · rintro rfl
      exact ⟨⟨hs.nodes, hs.numbers, hs.depth, trivial⟩, rfl⟩
    · rintro ⟨-, rfl⟩
      rfl
  | cons d ds ih =>
    intro s t outer hs hcontainers
    have hexpects : s.ExpectsValue := by
      intro parent outer' heq
      rw [hcontainers] at heq
      cases heq
      simp
    have henter : s.enter = s := by
      unfold enter
      rw [hcontainers]
      rfl
    have hd := h d (by simp) s
    rw [henter] at hd
    replace ih := ih (fun d hd => h d (by simp [hd]))
    simp only [itemTokens, run_append, Option.bind_eq_some_iff, itemNodes, itemNumbers, itemsHeight,
      ItemsTidy, Fits.append]
    constructor
    · rintro ⟨u, hu, ht⟩
      obtain ⟨hfits, rfl⟩ := (hd u hs hexpects).mp hu
      obtain ⟨hrest, rfl⟩ := (ih _ _ outer (hfits.within hs) hcontainers).mp ht
      exact ⟨⟨hfits, hrest⟩, after_after⟩
    · rintro ⟨⟨hfits, hrest⟩, rfl⟩
      refine ⟨_, (hd _ hs hexpects).mpr ⟨hfits, rfl⟩, ?_⟩
      exact (ih _ _ outer (hfits.within hs) hcontainers).mpr ⟨hrest, after_after.symm⟩

/-- A state inside an array. -/
def BoundsState.inArray (s : BoundsState) (outer : List JsonContainerState) : BoundsState :=
  { s with containers := ⟨false, false, []⟩ :: outer }

/-- A state inside an object that may take another name. -/
def BoundsState.withNames (s : BoundsState) (keys : List (List Char))
    (outer : List JsonContainerState) : BoundsState :=
  { s with containers := ⟨true, true, keys⟩ :: outer }

theorem runs_members {ms : List (List StrItem × Doc)} (h : ∀ m ∈ ms, RunsValue m.2) :
    ∀ (s t : BoundsState) (keys : List (List Char)) (outer : List JsonContainerState), s.Within →
      s.containers = ⟨true, true, keys⟩ :: outer → (run s (memberTokens ms) = some t ↔
        Fits s (memberNodes ms) (memberNumbers ms) (membersHeight ms)
          (((ms.map fun m => runes m.1).Nodup ∧ ∀ m ∈ ms, runes m.1 ∉ keys) ∧ MembersTidy ms) ∧
          t = (s.after (memberNodes ms) (memberNumbers ms)).withNames
            ((ms.map fun m => runes m.1).reverse ++ keys) outer) := by
  induction ms with
  | nil =>
    intro s t keys outer hs hcontainers
    simp only [memberTokens, run_nil, Option.some.injEq, memberNodes, memberNumbers, membersHeight,
      MembersTidy]
    have hsame : (s.after 0 0).withNames keys outer = s := by
      simp only [withNames, after, Nat.add_zero, ← hcontainers]
    simp only [List.map_nil, List.reverse_nil, List.nil_append, hsame]
    constructor
    · rintro rfl
      exact ⟨⟨hs.nodes, hs.numbers, hs.depth, by simp⟩, rfl⟩
    · rintro ⟨-, rfl⟩
      rfl
  | cons m ms ih =>
    intro s t keys outer hs hcontainers
    obtain ⟨key, d⟩ := m
    have hname : s.step (.string (runes key)) = if runes key ∈ keys then none else some { s with
        containers := ⟨true, false, runes key :: keys⟩ :: outer } := by
      unfold step
      rw [hcontainers]
      rfl
    simp only [memberTokens, run_cons, hname, memberNodes, memberNumbers, membersHeight,
      MembersTidy]
    by_cases hmem : runes key ∈ keys
    · simp only [if_pos hmem, Option.bind_none, reduceCtorEq, false_iff, not_and]
      rintro ⟨-, -, -, ⟨-, hnew⟩, -⟩
      exact absurd hmem (hnew (key, d) (by simp))
    simp only [if_neg hmem, Option.bind_some, run_append, Option.bind_eq_some_iff]
    have hlength : ∀ container : JsonContainerState,
        (container :: outer).length = s.containers.length := fun _ => by rw [hcontainers]; rfl
    have hd : ∀ u, run { s with containers := ⟨true, false, runes key :: keys⟩ :: outer }
        (tokens d) = some u ↔ Fits s (nodes d) (numbers d) (height d) (Tidy d) ∧
          u = (s.withNames (runes key :: keys) outer).after (nodes d) (numbers d) := fun u => by
      rw [← Fits.of_size (s := s) (t := { s with
        containers := ⟨true, false, runes key :: keys⟩ :: outer }) rfl rfl (hlength _)]
      refine h (key, d) (by simp) _ u ⟨hs.nodes, hs.numbers, (hlength _).trans_le hs.depth⟩ ?_
      intro parent outer' heq
      cases heq
      simp
    have hih := fun hfits : Fits s (nodes d) (numbers d) (height d) (Tidy d) =>
      ih (fun m hm => h m (by simp [hm]))
        ((s.withNames (runes key :: keys) outer).after (nodes d) (numbers d)) t (runes key :: keys)
        outer ⟨hfits.nodes, hfits.numbers, (hlength _).trans_le hs.depth⟩ rfl
    simp only [Fits.of_size (s := s.after (nodes d) (numbers d))
      (t := (s.withNames (runes key :: keys) outer).after (nodes d) (numbers d)) rfl rfl
      (hlength _)] at hih
    have hnames : (((key, d) :: ms).map fun m => runes m.1).Nodup ∧
        (∀ m ∈ (key, d) :: ms, runes m.1 ∉ keys) ↔
        (ms.map fun m => runes m.1).Nodup ∧ ∀ m ∈ ms, runes m.1 ∉ runes key :: keys := by
      rw [List.forall_mem_cons]
      simp only [List.map_cons, List.nodup_cons, List.mem_map, not_exists, not_and, List.mem_cons,
        not_or]
      constructor
      · rintro ⟨⟨hne, hnodup⟩, -, hkeys⟩
        exact ⟨hnodup, fun m hm => ⟨hne m hm, hkeys m hm⟩⟩
      · rintro ⟨hnodup, hkeys⟩
        exact ⟨⟨fun m hm => (hkeys m hm).1, hnodup⟩, hmem, fun m hm => (hkeys m hm).2⟩
    have hfinal : ∀ n k, (((s.withNames (runes key :: keys) outer).after (nodes d)
        (numbers d)).after n k).withNames
          ((ms.map fun m => runes m.1).reverse ++ runes key :: keys) outer =
        (s.after (nodes d + n) (numbers d + k)).withNames
          ((((key, d) :: ms).map fun m => runes m.1).reverse ++ keys) outer := by
      intro n k
      simp [withNames, after, Nat.add_assoc]
    rw [hnames, and_left_comm, Fits.append]
    constructor
    · rintro ⟨u, hu, ht⟩
      obtain ⟨hfits, rfl⟩ := (hd u).mp hu
      obtain ⟨hrest, rfl⟩ := (hih hfits).mp ht
      exact ⟨⟨hfits, hrest⟩, hfinal _ _⟩
    · rintro ⟨⟨hfits, hrest⟩, rfl⟩
      exact ⟨_, (hd _).mpr ⟨hfits, rfl⟩, (hih hfits).mpr ⟨hrest, (hfinal _ _).symm⟩⟩

/-- The node and depth limits on a value of one token. -/
theorem admit_eq_some : s.admit token = some t ↔
      (s.totalNodes + 1 ≤ maxJSONTotalNodes ∧ s.containers.length + 1 ≤ maxJSONDepth) ∧
        match token with
        | .number lit => (s.numberCount + 1 ≤ maxJSONNumbers ∧
            jsonNumberWithinResourceBounds lit = true) ∧ t = s.after 1 1
        | .openObject => t = (s.after 1 0).withNames [] s.containers
        | .openArray => t = (s.after 1 0).inArray s.containers
        | .closeObject | .closeArray => False
        | .null | .bool _ | .string _ => t = s.after 1 0 := by
  unfold BoundsState.admit
  dsimp only
  split
  · simp only [reduceCtorEq, false_iff, not_and]
    omega
  rename_i hlimits
  have hwithin : s.totalNodes + 1 ≤ maxJSONTotalNodes ∧
      s.containers.length + 1 ≤ maxJSONDepth := by omega
  simp only [hwithin, true_and]
  cases token with
  | number lit =>
    dsimp only
    split
    · rename_i hbad
      simp only [reduceCtorEq, false_iff, not_and]
      intro hgood
      exfalso
      rcases hbad with hbad | hbad
      · omega
      · simp [hbad] at hgood
    · rename_i hgood
      have hgood' : s.numberCount + 1 ≤ maxJSONNumbers ∧
          jsonNumberWithinResourceBounds lit = true := by
        simp only [not_or, Bool.not_eq_false] at hgood
        exact ⟨by omega, hgood.2⟩
      simp only [hgood', true_and, and_self, Option.some.injEq, after]
      exact eq_comm
  | openObject | openArray | null | bool | string =>
    simp only [Option.some.injEq, after, withNames, inArray]
    exact eq_comm
  | closeObject | closeArray => simp

/-- A value of one token that is not a number. -/
theorem runs_plain (hs : s.Within) (hexpects : s.ExpectsValue) (token : Token)
    (hobject : token ≠ .closeObject) (harray : token ≠ .closeArray)
    (h : s.enter.admit token = some t ↔ (s.enter.totalNodes + 1 ≤ maxJSONTotalNodes ∧
        s.enter.containers.length + 1 ≤ maxJSONDepth) ∧ t = s.enter.after 1 0) :
    run s [token] = some t ↔ Fits s 1 0 1 True ∧ t = s.enter.after 1 0 := by
  rw [run_cons, step_value hexpects _ hobject harray]
  simp only [run_nil, Option.bind_fun_some]
  rw [h, s.enter_length, s.enter_totals.1]
  constructor
  · rintro ⟨⟨hnodes, hdepth⟩, ht⟩
    exact ⟨⟨hnodes, hs.numbers, hdepth, trivial⟩, ht⟩
  · rintro ⟨hfits, ht⟩
    exact ⟨⟨hfits.nodes, hfits.height⟩, ht⟩

/-- A container: its opening delimiter, what is inside, its closing delimiter. -/
theorem runs_container {inside : BoundsState} (last : BoundsState) (hs : s.Within)
    (hexpects : s.ExpectsValue) {first final : Token} {body : List Token} {n k h : Nat}
    {tidy : Prop} (hobject : first ≠ .closeObject) (harray : first ≠ .closeArray)
    (hopen : ∀ u, s.enter.admit first = some u ↔ (s.enter.totalNodes + 1 ≤ maxJSONTotalNodes ∧
        s.enter.containers.length + 1 ≤ maxJSONDepth) ∧ u = inside)
    (hnodes : inside.totalNodes = s.enter.totalNodes + 1)
    (hnumbers : inside.numberCount = s.enter.numberCount)
    (hlength : inside.containers.length = s.enter.containers.length + 1)
    (hbody : inside.Within → ∀ u, run inside body = some u ↔ Fits inside n k h tidy ∧ u = last)
    (hclose : last.step final = some (s.enter.after (1 + n) k)) :
    run s (first :: (body ++ [final])) = some t ↔
      Fits s (1 + n) k (1 + h) tidy ∧ t = s.enter.after (1 + n) k := by
  rw [run_cons, step_value hexpects _ hobject harray]
  simp only [Option.bind_eq_some_iff, hopen, run_append]
  rw [s.enter_length] at hlength ⊢
  rw [s.enter_totals.1] at hnodes ⊢
  rw [s.enter_totals.2] at hnumbers
  constructor
  · rintro ⟨u, ⟨⟨hnode, hdepth⟩, rfl⟩, v, hv, ht⟩
    obtain ⟨hfits, rfl⟩ := (hbody ⟨by omega, hnumbers ▸ hs.numbers, by omega⟩ v).mp hv
    obtain ⟨hn, hk, hh, htidy⟩ := hfits
    rw [run_cons, hclose] at ht
    cases ht
    exact ⟨⟨by omega, by omega, by omega, htidy⟩, rfl⟩
  · rintro ⟨⟨hn, hk, hh, htidy⟩, rfl⟩
    refine ⟨inside, ⟨⟨by omega, by omega⟩, rfl⟩, last, ?_, ?_⟩
    · exact (hbody ⟨by omega, by omega, by omega⟩ last).mpr
        ⟨⟨by omega, by omega, by omega, htidy⟩, rfl⟩
    · rw [run_cons, hclose]
      rfl

theorem runs_value (d : Doc) : RunsValue d := by
  induction d using Doc.induct with
  | null =>
    intro s t hs hexpects
    exact runs_plain hs hexpects .null nofun nofun admit_eq_some
  | bool b =>
    intro s t hs hexpects
    exact runs_plain hs hexpects (.bool b) nofun nofun admit_eq_some
  | string items =>
    intro s t hs hexpects
    exact runs_plain hs hexpects (.string (runes items)) nofun nofun admit_eq_some
  | number lit =>
    intro s t hs hexpects
    simp only [tokens, run_cons, run_nil, Option.bind_fun_some,
      step_value hexpects (.number lit) nofun nofun, admit_eq_some]
    rw [s.enter_length, s.enter_totals.1, s.enter_totals.2]
    constructor
    · rintro ⟨⟨hnodes, hdepth⟩, ⟨hnumbers, htidy⟩, ht⟩
      exact ⟨⟨hnodes, hnumbers, hdepth, htidy⟩, ht⟩
    · rintro ⟨hfits, ht⟩
      exact ⟨⟨hfits.nodes, hfits.height⟩, ⟨hfits.numbers, hfits.tidy⟩, ht⟩
  | array items ih =>
    intro s t hs hexpects
    exact runs_container _ hs hexpects nofun nofun (fun u => admit_eq_some) rfl rfl rfl
      (fun hinside u => runs_items ih _ u s.enter.containers hinside rfl)
      (by simp [step, close, after, inArray,
        Nat.add_assoc, numbers])
  | object ms ih =>
    intro s t hs hexpects
    refine runs_container ((((s.enter.after 1 0).withNames [] s.enter.containers).after
        (memberNodes ms) (memberNumbers ms)).withNames (ms.map fun m => runes m.1).reverse
        s.enter.containers) hs hexpects nofun nofun (fun u => admit_eq_some) rfl rfl rfl
      (fun hinside u => ?_) ?_
    · rw [runs_members ih _ u [] s.enter.containers hinside rfl]
      simp only [List.not_mem_nil, not_false_eq_true, implies_true, and_true, List.append_nil]
      rfl
    · simp [step, close, after, withNames,
        Nat.add_assoc, numbers]

/-- `bridgeJSONWithinResourceBounds` on the tokens of a document. -/
theorem tokensWithinBounds_tokens (d : Doc) :
    tokensWithinBounds (tokens d) = true ↔
      nodes d ≤ maxJSONTotalNodes ∧ numbers d ≤ maxJSONNumbers ∧ height d ≤ maxJSONDepth ∧
        Tidy d := by
  have hrun := fun t => runs_value d ⟨[], 0, 0, 0⟩ t ⟨Nat.zero_le _, Nat.zero_le _, Nat.zero_le _⟩
    nofun
  simp only [run] at hrun
  unfold tokensWithinBounds
  constructor
  · intro h
    split at h
    · exact absurd h nofun
    rename_i s heq
    obtain ⟨⟨hnodes, hnumbers, hheight, htidy⟩, -⟩ := (hrun s).mp heq
    dsimp only at hnodes hnumbers hheight
    rw [Nat.zero_add] at hnodes hnumbers
    rw [List.length_nil, Nat.zero_add] at hheight
    exact ⟨hnodes, hnumbers, hheight, htidy⟩
  · rintro ⟨hnodes, hnumbers, hheight, htidy⟩
    have heq := (hrun _).mpr ⟨⟨by simpa using hnodes, by simpa using hnumbers,
      by simpa using hheight, htidy⟩, rfl⟩
    rw [heq]
    rfl

end ConveneWire.Contracts.ExecutionRuntime

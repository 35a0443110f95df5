import AnalysisHost.Flag
import Mathlib.Data.List.Infix
import Mathlib.Data.List.Nodup

/-!
# Claims, one after the other

Several flags are claimed from one command line in turn, each from what the claims before it left. A
flag in separate form takes the token behind it, and that need not be the token that stood behind it
in the original command line: what stood between the two may have been claimed.

To tell the two apart, tokens carry their place in the original command line (`Placed`), and
`Claim.leave` says which of them a claim leaves. For claims that can be told apart from each other
(`Distinguishable`) and that all accept what they see:

- `inPlace_iff_not_obstructed`: each value stood right behind its flag, exactly if no bare flag has
  a token of an earlier claim right behind it;
- `dangling_iff_obstructed`: these are also the only command lines in which a bare flag has no value
  in its place and nobody complains.
-/

namespace AnalysisHost.Flag

/-! ## Claims -/

/-- A claim of one flag. -/
inductive Claim where
  /-- The flag has a value, attached or in the token behind it. -/
  | valued (flag : String)
  | switch (flag : String)
  deriving DecidableEq, Repr

namespace Claim

def flag : Claim → String
  | valued flag => flag
  | switch flag => flag

/-- What a claim leaves of a command line, if it accepts it. -/
def rest (c : Claim) (args : List String) : Except FlagError (List String) :=
  match c with
  | valued flag => (claimAll flag args).map (·.2)
  | switch flag => (claimSwitch flag args).map (·.2)

end Claim

/-- A token and its place in the original command line. -/
structure Placed where
  place : Nat
  text : String
  deriving DecidableEq, Repr

/-- The tokens of a command line in their places. -/
def placed (args : List String) : List Placed := args.mapIdx Placed.mk

theorem map_text_placed (args : List String) : (placed args).map Placed.text = args := by
  apply List.ext_getElem?
  intro i
  rw [List.getElem?_map, placed, List.getElem?_mapIdx, Option.map_map]
  exact Option.map_id'

/-- What the claim of a flag with a value leaves: all but the flag, attached or bare, and the token
behind a bare one. -/
def leaveValued (flag : String) : List Placed → List Placed
  | [] => []
  | token :: tokens =>
    match read flag token.text with
    | .attached _ => leaveValued flag tokens
    | .bare =>
      match tokens with
      | [] => []
      | _ :: tokens => leaveValued flag tokens
    | .other => token :: leaveValued flag tokens

/-- The values that the claim of a flag takes from tokens of their own, each behind the token of its
flag. -/
def taken (flag : String) : List Placed → List (Placed × Placed)
  | [] => []
  | token :: tokens =>
    match read flag token.text with
    | .attached _ => taken flag tokens
    | .bare =>
      match tokens with
      | [] => []
      | value :: tokens => (token, value) :: taken flag tokens
    | .other => taken flag tokens

/-- What a claim leaves. -/
def Claim.leave : Claim → List Placed → List Placed
  | valued flag, tokens => leaveValued flag tokens
  | switch flag, tokens => tokens.filter fun token => decide (read flag token.text = .other)

/-- A claim accepts the tokens that it sees. -/
def Claim.Accepts (c : Claim) (tokens : List Placed) : Prop :=
  ∃ left, c.rest (tokens.map Placed.text) = .ok left

/-- What the first `k` claims leave of a command line. -/
def left (claims : List Claim) (args : List String) (k : Nat) : List Placed :=
  (claims.take k).foldl (fun tokens c => c.leave tokens) (placed args)

/-! ## One claim -/

theorem leaveValued_sublist (flag : String) (tokens : List Placed) :
    (leaveValued flag tokens).Sublist tokens := by
  fun_induction leaveValued flag tokens with
  | case1 => exact List.Sublist.refl _
  | case2 token tokens value h ih => exact ih.cons _
  | case3 token h => exact List.nil_sublist _
  | case4 token h value tokens ih => exact (ih.cons _).cons _
  | case5 token tokens h ih => exact ih.cons_cons _

/-- A claim leaves tokens in their order. -/
theorem Claim.leave_sublist (c : Claim) (tokens : List Placed) :
    (c.leave tokens).Sublist tokens := by
  cases c with
  | valued flag => exact leaveValued_sublist flag tokens
  | switch flag => exact List.filter_sublist

theorem map_text_leaveValued {flag : String} {tokens : List Placed} {values others : List String}
    (h : claimAll flag (tokens.map Placed.text) = .ok (values, others)) :
    (leaveValued flag tokens).map Placed.text = others := by
  fun_induction leaveValued flag tokens generalizing values others with
  | case1 => cases h; rfl
  | case2 token tokens value hread ih =>
    obtain ⟨values', -, hrest⟩ := claimAll_attached hread h
    exact ih hrest
  | case3 token hread =>
    obtain ⟨_, _, _, htokens, -⟩ := claimAll_bare hread h
    cases htokens
  | case4 token hread value tokens ih =>
    obtain ⟨_, _, values', htokens, -, -, hrest⟩ := claimAll_bare hread h
    cases htokens
    exact ih hrest
  | case5 token tokens hread ih =>
    obtain ⟨others', rfl, hrest⟩ := claimAll_other hread h
    rw [List.map_cons, ih hrest]

theorem Claim.map_text_leave {c : Claim} {tokens : List Placed} {others : List String}
    (h : c.rest (tokens.map Placed.text) = .ok others) :
    (c.leave tokens).map Placed.text = others := by
  cases c with
  | valued flag =>
    rw [rest] at h
    cases hclaim : claimAll flag (tokens.map Placed.text) with
    | error e => rw [hclaim] at h; cases h
    | ok claimed => rw [hclaim] at h; cases h; exact map_text_leaveValued hclaim
  | switch flag =>
    rw [rest] at h
    cases hclaim : claimSwitch flag (tokens.map Placed.text) with
    | error e => rw [hclaim] at h; cases h
    | ok claimed =>
      obtain ⟨present, left⟩ := claimed
      rw [hclaim] at h
      cases h
      rw [claimSwitch_eq_ok hclaim, List.filter_map]
      rfl

/-- A value that is taken stands behind its flag, among the tokens that the claim sees. -/
theorem infix_of_mem_taken {flag : String} {tokens : List Placed} {token value : Placed}
    (h : (token, value) ∈ taken flag tokens) :
    token.text = flag ∧ [token, value] <:+: tokens := by
  fun_induction taken flag tokens with
  | case1 => cases h
  | case2 first tokens attached hread ih =>
    obtain ⟨htext, hinfix⟩ := ih h
    exact ⟨htext, List.infix_cons hinfix⟩
  | case3 first hread => cases h
  | case4 first hread second tokens ih =>
    rcases List.mem_cons.mp h with heq | h
    · cases heq
      exact ⟨read_eq_bare_iff.mp hread, [], tokens, rfl⟩
    · obtain ⟨htext, hinfix⟩ := ih h
      exact ⟨htext, List.infix_cons (List.infix_cons hinfix)⟩
  | case5 first tokens hread ih =>
    obtain ⟨htext, hinfix⟩ := ih h
    exact ⟨htext, List.infix_cons hinfix⟩

/-- What is taken is among the values that an accepted claim gives back, in the same order. -/
theorem taken_sublist_values {flag : String} {tokens : List Placed} {values others : List String}
    (h : claimAll flag (tokens.map Placed.text) = .ok (values, others)) :
    ((taken flag tokens).map (·.2.text)).Sublist values := by
  fun_induction taken flag tokens generalizing values others with
  | case1 => exact List.nil_sublist _
  | case2 token tokens value hread ih =>
    obtain ⟨values', rfl, hrest⟩ := claimAll_attached hread h
    exact (ih hrest).cons _
  | case3 token hread => exact List.nil_sublist _
  | case4 token hread value tokens ih =>
    obtain ⟨_, _, values', htokens, -, rfl, hrest⟩ := claimAll_bare hread h
    cases htokens
    exact (ih hrest).cons_cons _
  | case5 token tokens hread ih =>
    obtain ⟨others', rfl, hrest⟩ := claimAll_other hread h
    exact ih hrest

theorem mem_values_of_mem_taken {flag : String} {tokens : List Placed}
    {values others : List String}
    (h : claimAll flag (tokens.map Placed.text) = .ok (values, others)) {pair : Placed × Placed}
    (hpair : pair ∈ taken flag tokens) : pair.2.text ∈ values :=
  (taken_sublist_values h).subset (List.mem_map_of_mem hpair)

/-- In an accepted command line every bare flag takes a value. A flag begins with a dash, so it is
no value itself. -/
theorem exists_mem_taken {flag : String} (hflag : startsWithDash flag = true)
    {tokens : List Placed} {values others : List String}
    (h : claimAll flag (tokens.map Placed.text) = .ok (values, others)) {token : Placed}
    (htoken : token ∈ tokens) (hbare : token.text = flag) :
    ∃ value, (token, value) ∈ taken flag tokens ∧ startsWithDash value.text = false := by
  have hread : read flag token.text = .bare := read_eq_bare_iff.mpr hbare
  fun_induction taken flag tokens generalizing values others with
  | case1 => cases htoken
  | case2 first tokens attached hfirst ih =>
    obtain ⟨values', -, hrest⟩ := claimAll_attached hfirst h
    rcases List.mem_cons.mp htoken with rfl | htoken
    · rw [hread] at hfirst
      cases hfirst
    · exact ih hrest htoken
  | case3 first hfirst =>
    obtain ⟨_, _, _, htokens, -⟩ := claimAll_bare hfirst h
    cases htokens
  | case4 first hfirst second tokens ih =>
    obtain ⟨_, _, values', htokens, hdash, -, hrest⟩ := claimAll_bare hfirst h
    cases htokens
    rcases List.mem_cons.mp htoken with rfl | htoken
    · exact ⟨second, List.mem_cons_self, hdash⟩
    · rcases List.mem_cons.mp htoken with rfl | htoken
      · -- The flag cannot have been taken for a value.
        rw [hbare, hflag] at hdash
        cases hdash
      · obtain ⟨value, hvalue, hvdash⟩ := ih hrest htoken
        exact ⟨value, List.mem_cons_of_mem _ hvalue, hvdash⟩
  | case5 first tokens hfirst ih =>
    obtain ⟨others', -, hrest⟩ := claimAll_other hfirst h
    rcases List.mem_cons.mp htoken with rfl | htoken
    · rw [hread] at hfirst
      cases hfirst
    · exact ih hrest htoken

/-- An accepted claim leaves every token of another flag, which begins with a dash and is no
value. -/
theorem mem_leaveValued {flag : String} {tokens : List Placed} {values others : List String}
    (h : claimAll flag (tokens.map Placed.text) = .ok (values, others)) {a : Placed}
    (ha : a ∈ tokens) (hdash : startsWithDash a.text = true) (hread : read flag a.text = .other) :
    a ∈ leaveValued flag tokens := by
  fun_induction leaveValued flag tokens generalizing values others with
  | case1 => cases ha
  | case2 token tokens value htoken ih =>
    obtain ⟨values', -, hrest⟩ := claimAll_attached htoken h
    rcases List.mem_cons.mp ha with rfl | ha
    · rw [hread] at htoken
      cases htoken
    · exact ih hrest ha
  | case3 token htoken =>
    obtain ⟨_, _, _, htokens, -⟩ := claimAll_bare htoken h
    cases htokens
  | case4 token htoken value tokens ih =>
    obtain ⟨_, _, values', htokens, hvalue, -, hrest⟩ := claimAll_bare htoken h
    cases htokens
    rcases List.mem_cons.mp ha with rfl | ha
    · rw [hread] at htoken
      cases htoken
    · rcases List.mem_cons.mp ha with rfl | ha
      · -- What begins with a dash is not taken for a value.
        rw [hdash] at hvalue
        cases hvalue
      · exact ih hrest ha
  | case5 token tokens htoken ih =>
    obtain ⟨others', rfl, hrest⟩ := claimAll_other htoken h
    rcases List.mem_cons.mp ha with rfl | ha
    · exact List.mem_cons_self
    · apply List.mem_cons_of_mem
      exact ih hrest ha

/-- Two neighbours in a list of which the first is the head, or both are in the tail. -/
theorem infix_pair_cons_iff {α : Type} {a b x : α} {xs : List α} :
    [a, b] <:+: x :: xs ↔ (a = x ∧ ∃ ys, xs = b :: ys) ∨ [a, b] <:+: xs := by
  rw [List.infix_cons_iff, List.cons_prefix_cons]
  constructor
  · rintro (⟨hax, ys, hys⟩ | h)
    · exact Or.inl ⟨hax, ys, hys.symm⟩
    · exact Or.inr h
  · rintro (⟨hax, ys, hys⟩ | h)
    · exact Or.inl ⟨hax, ys, hys.symm⟩
    · exact Or.inr h

/-- A token that is left keeps its neighbour, unless the neighbour is the flag itself: only then is
it claimed. -/
theorem infix_leaveValued {flag : String} {tokens : List Placed} (hnodup : tokens.Nodup)
    {a b : Placed} (h : [a, b] <:+: tokens) (ha : a ∈ leaveValued flag tokens) :
    [a, b] <:+: leaveValued flag tokens ∨ read flag b.text ≠ .other := by
  fun_induction leaveValued flag tokens with
  | case1 => cases ha
  | case2 token tokens value htoken ih =>
    -- The first of the two is left, so it is not the token that was claimed.
    have hmem : a ∈ tokens := (leaveValued_sublist flag tokens).subset ha
    rcases infix_pair_cons_iff.mp h with ⟨rfl, -⟩ | h
    · exact absurd hmem (List.nodup_cons.mp hnodup).1
    · exact ih (List.nodup_cons.mp hnodup).2 h ha
  | case3 token htoken => cases ha
  | case4 token htoken value tokens ih =>
    have hmem : a ∈ tokens := (leaveValued_sublist flag tokens).subset ha
    obtain ⟨htok, hnodup⟩ := List.nodup_cons.mp hnodup
    rcases infix_pair_cons_iff.mp h with ⟨rfl, -⟩ | h
    · exact absurd (List.mem_cons_of_mem _ hmem) htok
    · rcases infix_pair_cons_iff.mp h with ⟨rfl, -⟩ | h
      · exact absurd hmem (List.nodup_cons.mp hnodup).1
      · exact ih (List.nodup_cons.mp hnodup).2 h ha
  | case5 token tokens htoken ih =>
    obtain ⟨htok, hnodup⟩ := List.nodup_cons.mp hnodup
    rcases infix_pair_cons_iff.mp h with ⟨rfl, ys, rfl⟩ | hpair
    · -- The two come first, and the second is left unless it is the flag.
      cases hb : read flag b.text with
      | other =>
        refine Or.inl ⟨[], leaveValued flag ys, ?_⟩
        rw [leaveValued.eq_def flag (b :: ys)]
        simp only [hb]
        rfl
      | bare => exact Or.inr (by simp)
      | attached value => exact Or.inr (by simp)
    · rcases List.mem_cons.mp ha with rfl | ha
      · have hmem : a ∈ tokens := hpair.subset List.mem_cons_self
        exact absurd hmem htok
      · rcases ih hnodup hpair ha with hleft | hb
        · left
          exact List.infix_cons hleft
        · exact Or.inr hb

/-! ## Claims in turn

Whatever a claim does, a claim that is accepted takes only tokens of its own flag and the values
behind them. So a flag of a later claim stays (`mem_left`), and a token that stays keeps its
neighbour until that one is claimed as a flag (`infix_left`). -/

namespace Claim

theorem accepts_valued {flag : String} {tokens : List Placed}
    (h : (valued flag).Accepts tokens) :
    ∃ values others, claimAll flag (tokens.map Placed.text) = .ok (values, others) := by
  obtain ⟨others, h⟩ := h
  rw [rest] at h
  cases hclaim : claimAll flag (tokens.map Placed.text) with
  | error e => rw [hclaim] at h; cases h
  | ok claimed => exact ⟨claimed.1, claimed.2, rfl⟩

theorem mem_leave {c : Claim} {tokens : List Placed} (h : c.Accepts tokens) {a : Placed}
    (ha : a ∈ tokens) (hdash : startsWithDash a.text = true)
    (hread : read c.flag a.text = .other) : a ∈ c.leave tokens := by
  cases c with
  | valued flag =>
    obtain ⟨values, others, hclaim⟩ := accepts_valued h
    exact mem_leaveValued hclaim ha hdash hread
  | switch flag => exact List.mem_filter.mpr ⟨ha, decide_eq_true hread⟩

theorem infix_leave {c : Claim} {tokens : List Placed} (hnodup : tokens.Nodup) {a b : Placed}
    (h : [a, b] <:+: tokens) (ha : a ∈ c.leave tokens) :
    [a, b] <:+: c.leave tokens ∨ read c.flag b.text ≠ .other := by
  cases c with
  | valued flag => exact infix_leaveValued hnodup h ha
  | switch flag =>
    by_cases hb : read flag b.text = .other
    · left
      have hread : read flag a.text = .other := of_decide_eq_true (List.mem_filter.mp ha).2
      have hfilter := h.filter fun token => decide (read flag token.text = .other)
      simp only [List.filter_cons, hread, hb, decide_true, if_true, List.filter_nil] at hfilter
      exact hfilter
    · exact Or.inr hb

end Claim

/-- Every flag begins with a dash, and no claim takes the flag of a later one for its own. -/
structure Distinguishable (claims : List Claim) : Prop where
  dash : ∀ c ∈ claims, startsWithDash c.flag = true
  apart : claims.Pairwise fun c d => read c.flag d.flag = .other

/-- Every claim accepts what those before it leave. -/
def AcceptsAll (claims : List Claim) (args : List String) : Prop :=
  ∀ (k : Nat) (c : Claim), claims[k]? = some c → c.Accepts (left claims args k)

/-- What all claims leave, each from what the one before it left. -/
def restAll : List Claim → List String → Except FlagError (List String)
  | [], args => .ok args
  | c :: claims, args =>
    match c.rest args with
    | .ok others => restAll claims others
    | .error e => .error e

theorem restAll_append (front back : List Claim) (args : List String) :
    restAll (front ++ back) args =
      match restAll front args with
      | .ok others => restAll back others
      | .error e => .error e := by
  induction front generalizing args with
  | nil => rfl
  | cons c front ih =>
    rw [List.cons_append, restAll, restAll]
    cases c.rest args with
    | error e => rfl
    | ok others => exact ih others

theorem acceptsAll_of_restAll {claims : List Claim} {args others : List String}
    (h : restAll claims args = .ok others) : AcceptsAll claims args := by
  -- The induction is on the claims, over whatever tokens they begin with.
  have haccepts : ∀ (tokens : List Placed), restAll claims (tokens.map Placed.text) = .ok others →
      ∀ (k : Nat) (c : Claim), claims[k]? = some c →
        c.Accepts ((claims.take k).foldl (fun tokens c => c.leave tokens) tokens) := by
    clear h
    induction claims with
    | nil =>
      intro _ _ k c hc
      cases hc
    | cons first claims ih =>
      intro tokens h k c hc
      rw [restAll] at h
      split at h
      · next mid hfirst =>
        cases k with
        | zero =>
          cases hc
          exact ⟨mid, hfirst⟩
        | succ k =>
          rw [← Claim.map_text_leave hfirst] at h
          exact ih (first.leave tokens) h k c hc
      · cases h
  refine haccepts (placed args) ?_
  rw [map_text_placed]
  exact h

/-- A token that is read as a flag begins with a dash, as the flag does. -/
theorem startsWithDash_of_read {flag token : String} (hflag : startsWithDash flag = true)
    (h : read flag token ≠ .other) : startsWithDash token = true := by
  have hfront : ∃ rest, token.toList = flag.toList ++ rest := by
    cases hread : read flag token with
    | bare => exact ⟨[], by rw [read_eq_bare_iff.mp hread, List.append_nil]⟩
    | attached value => exact ⟨_, read_eq_attached_iff.mp hread⟩
    | other => exact absurd hread h
  obtain ⟨rest, htoken⟩ := hfront
  unfold startsWithDash at hflag ⊢
  rw [htoken]
  cases hchars : flag.toList with
  | nil => rw [hchars] at hflag; cases hflag
  | cons c cs => rw [hchars] at hflag; exact hflag

theorem mem_placed_iff {args : List String} {p : Placed} :
    p ∈ placed args ↔ args[p.place]? = some p.text := by
  rw [placed, List.mem_mapIdx]
  constructor
  · rintro ⟨i, hi, rfl⟩
    exact List.getElem?_eq_getElem hi
  · intro h
    obtain ⟨hi, htext⟩ := List.getElem?_eq_some_iff.mp h
    exact ⟨p.place, hi, by rw [htext]⟩

theorem placed_increasing (args : List String) :
    (placed args).Pairwise fun p q => p.place < q.place := by
  rw [List.pairwise_iff_getElem]
  intro i j hi hj hij
  simp only [placed, List.getElem_mapIdx]
  exact hij

/-- Tokens in neighbouring places are neighbours. -/
theorem infix_placed {args : List String} {a b : Placed} (ha : a ∈ placed args)
    (hb : b ∈ placed args) (hplace : b.place = a.place + 1) : [a, b] <:+: placed args := by
  rw [mem_placed_iff] at ha hb
  have hlength : b.place < args.length := (List.getElem?_eq_some_iff.mp hb).1
  rw [List.infix_iff_getElem?]
  refine ⟨a.place, ?_, ?_⟩
  · show 2 + a.place ≤ (args.mapIdx Placed.mk).length
    rw [List.length_mapIdx]
    omega
  · intro i hi
    rw [placed, List.getElem?_mapIdx]
    match i, hi with
    | 0, _ => simp [ha]
    | 1, _ => rw [Nat.add_comm, ← hplace, hb]; rfl

section Pipeline

variable {claims : List Claim} {args : List String}

theorem left_succ {k : Nat} {c : Claim} (h : claims[k]? = some c) :
    left claims args (k + 1) = c.leave (left claims args k) := by
  unfold left
  rw [List.take_add_one, h, List.foldl_append]
  rfl

theorem left_succ_of_none {k : Nat} (h : claims[k]? = none) :
    left claims args (k + 1) = left claims args k := by
  unfold left
  rw [List.take_add_one, h, Option.toList_none, List.append_nil]

theorem left_sublist (k : Nat) : (left claims args k).Sublist (placed args) := by
  induction k with
  | zero => exact List.Sublist.refl _
  | succ k ih =>
    cases h : claims[k]? with
    | none => rw [left_succ_of_none h]; exact ih
    | some c => rw [left_succ h]; exact (c.leave_sublist _).trans ih

theorem left_increasing (k : Nat) :
    (left claims args k).Pairwise fun p q => p.place < q.place :=
  (placed_increasing args).sublist (left_sublist k)

theorem nodup_left (k : Nat) : (left claims args k).Nodup := by
  refine (left_increasing k).imp ?_
  rintro p q hlt rfl
  exact Nat.lt_irrefl _ hlt

theorem place_lt_of_infix {k : Nat} {a b : Placed} (h : [a, b] <:+: left claims args k) :
    a.place < b.place := by
  have hpair := (left_increasing k).sublist h.sublist
  exact (List.pairwise_cons.mp hpair).1 b List.mem_cons_self

/-- A token of a flag stays until that flag is claimed. -/
theorem mem_left (haccepts : AcceptsAll claims args) {k : Nat} {a : Placed} (ha : a ∈ placed args)
    (hdash : startsWithDash a.text = true)
    (hread : ∀ j < k, ∀ c, claims[j]? = some c → read c.flag a.text = .other) :
    a ∈ left claims args k := by
  induction k with
  | zero => exact ha
  | succ k ih =>
    have hmem : a ∈ left claims args k := ih fun j hj => hread j (Nat.lt_succ_of_lt hj)
    cases h : claims[k]? with
    | none => rw [left_succ_of_none h]; exact hmem
    | some c =>
      rw [left_succ h]
      exact Claim.mem_leave (haccepts k c h) hmem hdash (hread k (Nat.lt_succ_self k) c h)

/-- A token that stays keeps its neighbour until that one is claimed as a flag. -/
theorem infix_left {k : Nat} {a b : Placed} (h : [a, b] <:+: placed args)
    (ha : a ∈ left claims args k) :
    [a, b] <:+: left claims args k ∨
      ∃ j < k, ∃ c : Claim, claims[j]? = some c ∧ read c.flag b.text ≠ .other := by
  induction k with
  | zero => exact Or.inl h
  | succ k ih =>
    cases hc : claims[k]? with
    | none =>
      rw [left_succ_of_none hc] at ha ⊢
      rcases ih ha with hleft | ⟨j, hj, hclaimed⟩
      · exact Or.inl hleft
      · exact Or.inr ⟨j, Nat.lt_succ_of_lt hj, hclaimed⟩
    | some c =>
      rw [left_succ hc] at ha ⊢
      have hmem : a ∈ left claims args k := (c.leave_sublist _).subset ha
      rcases ih hmem with hleft | ⟨j, hj, hclaimed⟩
      · rcases Claim.infix_leave (nodup_left k) hleft ha with hleft | hread
        · exact Or.inl hleft
        · exact Or.inr ⟨k, Nat.lt_succ_self k, c, hc, hread⟩
      · exact Or.inr ⟨j, Nat.lt_succ_of_lt hj, hclaimed⟩

/-- In a list without repetition, a member has one neighbour at most. -/
theorem infix_pair_unique {α : Type} {a b c : α} {xs : List α} (hnodup : xs.Nodup)
    (hb : [a, b] <:+: xs) (hc : [a, c] <:+: xs) : b = c := by
  induction xs with
  | nil => exact absurd (List.infix_nil.mp hb) (List.cons_ne_nil _ _)
  | cons x xs ih =>
    obtain ⟨hx, hnodup⟩ := List.nodup_cons.mp hnodup
    rcases infix_pair_cons_iff.mp hb with ⟨rfl, ys, rfl⟩ | hbtail
    · rcases infix_pair_cons_iff.mp hc with ⟨-, zs, hzs⟩ | hc
      · exact (List.cons.inj hzs).1
      · exact absurd (hc.subset List.mem_cons_self) hx
    · rcases infix_pair_cons_iff.mp hc with ⟨rfl, -⟩ | hc
      · exact absurd (hbtail.subset List.mem_cons_self) hx
      · exact ih hnodup hbtail hc

/-! ## In place, or obstructed

Claims are made one behind the other, so a flag may meet a value that was not its neighbour. This
happens exactly where an earlier claim has taken what stood between the two. -/

/-- Every value that is taken from a token of its own stood right behind its flag in the original
command line. -/
def InPlace (claims : List Claim) (args : List String) : Prop :=
  ∀ (k : Nat) (flag : String) (token value : Placed), claims[k]? = some (.valued flag) →
    (token, value) ∈ taken flag (left claims args k) → value.place = token.place + 1

/-- A bare flag is last in the original command line, or a token that begins with a dash stands
right behind it. -/
def Dangling (claims : List Claim) (args : List String) : Prop :=
  ∃ flag, .valued flag ∈ claims ∧ ∃ i : Nat, args[i]? = some flag ∧
    ∀ next, args[i + 1]? = some next → startsWithDash next = true

/-- A bare flag has a token right behind it that an earlier claim takes for its flag. -/
def Obstructed (claims : List Claim) (args : List String) : Prop :=
  ∃ (k : Nat) (flag : String), claims[k]? = some (.valued flag) ∧ ∃ (i : Nat) (next : String),
    args[i]? = some flag ∧ args[i + 1]? = some next ∧
      ∃ j < k, ∃ c : Claim, claims[j]? = some c ∧ read c.flag next ≠ .other

/-- A bare flag that goes without a value in its place takes a value out of place. -/
theorem not_inPlace_of_dangling (hdistinct : Distinguishable claims)
    (haccepts : AcceptsAll claims args) (h : Dangling claims args) : ¬ InPlace claims args := by
  obtain ⟨flag, hmem, i, hi, hnext⟩ := h
  obtain ⟨k, hk⟩ := List.mem_iff_getElem?.mp hmem
  intro hplace
  have hflag : startsWithDash flag = true := hdistinct.dash _ hmem
  -- No earlier claim takes the flag, so it is there when its turn comes, and takes a value.
  have hleft : ⟨i, flag⟩ ∈ left claims args k := by
    refine mem_left haccepts (mem_placed_iff.mpr hi) hflag ?_
    intro j hj c hc
    obtain ⟨hjlt, rfl⟩ := List.getElem?_eq_some_iff.mp hc
    obtain ⟨hklt, hkeq⟩ := List.getElem?_eq_some_iff.mp hk
    have hread := List.pairwise_iff_getElem.mp hdistinct.apart j k hjlt hklt hj
    rw [hkeq] at hread
    exact hread
  obtain ⟨values, others, hclaim⟩ := Claim.accepts_valued (haccepts k _ hk)
  obtain ⟨value, htaken, hvalue⟩ := exists_mem_taken hflag hclaim hleft rfl
  have hat : args[value.place]? = some value.text := by
    have hinfix := (infix_of_mem_taken htaken).2
    have hmem : value ∈ left claims args k :=
      hinfix.subset (List.mem_cons_of_mem _ List.mem_cons_self)
    apply mem_placed_iff.mp
    exact (left_sublist k).subset hmem
  -- In its place that value would be the token with the dash.
  rw [hplace k flag _ value hk htaken] at hat
  rw [hnext value.text hat] at hvalue
  cases hvalue

/-- A value out of place got there because the token in between was claimed earlier. -/
theorem obstructed_of_not_inPlace (h : ¬ InPlace claims args) : Obstructed claims args := by
  unfold InPlace at h
  push Not at h
  obtain ⟨k, flag, token, value, hk, htaken, hplace⟩ := h
  obtain ⟨htext, hinfix⟩ := infix_of_mem_taken htaken
  have hlt : token.place < value.place := place_lt_of_infix hinfix
  have htoken : token ∈ left claims args k := hinfix.subset List.mem_cons_self
  have hvalue : value ∈ left claims args k :=
    hinfix.subset (List.mem_cons_of_mem _ List.mem_cons_self)
  have hflagAt := mem_placed_iff.mp ((left_sublist k).subset htoken)
  have hvalueAt := mem_placed_iff.mp ((left_sublist k).subset hvalue)
  -- The value stands further behind, so there is a token in between.
  have hlength : token.place + 1 < args.length := by
    have := (List.getElem?_eq_some_iff.mp hvalueAt).1
    omega
  have hnext : args[token.place + 1]? = some args[token.place + 1] :=
    List.getElem?_eq_getElem hlength
  have hpair : [token, ⟨token.place + 1, args[token.place + 1]⟩] <:+: placed args :=
    infix_placed ((left_sublist k).subset htoken) (mem_placed_iff.mpr hnext) rfl
  -- That token is still there, and then it is the value, or it has been claimed.
  rcases infix_left hpair htoken with hleft | ⟨j, hj, c, hc, hread⟩
  · have heq := infix_pair_unique (nodup_left k) hinfix hleft
    rw [heq] at hplace
    exact absurd rfl hplace
  · rw [htext] at hflagAt
    exact ⟨k, flag, hk, token.place, _, hflagAt, hnext, j, hj, c, hc, hread⟩

theorem Obstructed.dangling (hdistinct : Distinguishable claims) (h : Obstructed claims args) :
    Dangling claims args := by
  obtain ⟨k, flag, hk, i, next, hi, hnext, j, -, c, hc, hread⟩ := h
  refine ⟨flag, List.mem_of_getElem? hk, i, hi, ?_⟩
  intro other hother
  rw [hnext] at hother
  cases hother
  exact startsWithDash_of_read (hdistinct.dash c (List.mem_of_getElem? hc)) hread

/-- **When values stand in their places**: an accepted command line takes each from right behind its
flag, unless a token there is claimed earlier as a flag. -/
theorem inPlace_iff_not_obstructed (hdistinct : Distinguishable claims)
    (haccepts : AcceptsAll claims args) : InPlace claims args ↔ ¬ Obstructed claims args := by
  constructor
  · intro hplace hobstructed
    exact not_inPlace_of_dangling hdistinct haccepts (hobstructed.dangling hdistinct) hplace
  · intro hfree
    by_contra hplace
    apply hfree
    exact obstructed_of_not_inPlace hplace

/-- An accepted command line leaves a flag dangling only where it is obstructed. -/
theorem dangling_iff_obstructed (hdistinct : Distinguishable claims)
    (haccepts : AcceptsAll claims args) : Dangling claims args ↔ Obstructed claims args := by
  constructor
  · intro hdangling
    apply obstructed_of_not_inPlace
    exact not_inPlace_of_dangling hdistinct haccepts hdangling
  · intro hobstructed
    exact hobstructed.dangling hdistinct

end Pipeline

end AnalysisHost.Flag

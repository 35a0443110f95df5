/-!
# Typed slots

A store that holds at most one value of each kind. Kinds are indices `k : κ`, and `Value k` is the
type of what is stored under `k`.

The store itself does not know these types. It is a list of boxes by kind, and a box (`Boxed`) gives
its value only to those who ask for the kind that is inside. That a look-up at one kind is never
refused by the box that it finds there is a rule of the store (`Slots.typed`), which every operation
keeps.

What the store means is `get?`, a partial map from kinds to values; the theorems say what each
operation does to that map.
-/

namespace AnalysisHost

variable {κ : Type} [DecidableEq κ] {Value : κ → Type}

/-- A value whose type is not known from outside: its kind is in the box. -/
abbrev Boxed (Value : κ → Type) := (k : κ) × Value k

namespace Boxed

/-- The value in a box, for those who ask for the kind that is inside. -/
def open? (box : Boxed Value) (k : κ) : Option (Value k) :=
  if h : box.1 = k then some (h ▸ box.2) else none

theorem open?_self (k : κ) (v : Value k) : open? ⟨k, v⟩ k = some v := dif_pos rfl

theorem isSome_open? {box : Boxed Value} {k : κ} (h : box.1 = k) : (box.open? k).isSome = true := by
  subst h
  rw [open?_self]
  rfl

end Boxed

/-- An entry: a kind and the box that is stored under it. -/
abbrev Slot (Value : κ → Type) := κ × Boxed Value

namespace Slot

def find? (k : κ) : List (Slot Value) → Option (Boxed Value)
  | [] => none
  | (k', box) :: rest => if k' = k then some box else find? k rest

/-- The entries of all other kinds. -/
def without (k : κ) (entries : List (Slot Value)) : List (Slot Value) :=
  entries.filter fun e => decide (e.1 ≠ k)

theorem find?_cons_self (k : κ) (box : Boxed Value) (entries : List (Slot Value)) :
    find? k ((k, box) :: entries) = some box := if_pos rfl

theorem find?_cons_of_ne {k j : κ} (h : k ≠ j) (box : Boxed Value) (entries : List (Slot Value)) :
    find? j ((k, box) :: entries) = find? j entries := if_neg h

theorem mem_of_find? {k : κ} {box : Boxed Value} {entries : List (Slot Value)}
    (h : find? k entries = some box) : (k, box) ∈ entries := by
  induction entries with
  | nil => cases h
  | cons e es ih =>
    obtain ⟨k', box'⟩ := e
    by_cases hk : k' = k
    · subst hk
      rw [find?_cons_self] at h
      cases h
      exact List.mem_cons_self
    · rw [find?_cons_of_ne hk] at h
      exact List.mem_cons_of_mem _ (ih h)

theorem isSome_find?_iff {k : κ} {entries : List (Slot Value)} :
    (find? k entries).isSome = true ↔ k ∈ entries.map (·.1) := by
  induction entries with
  | nil => simp [find?]
  | cons e es ih =>
    obtain ⟨k', box⟩ := e
    by_cases hk : k' = k
    · subst hk
      simp [find?_cons_self]
    · rw [find?_cons_of_ne hk, ih, List.map_cons, List.mem_cons]
      simp [Ne.symm hk]

theorem without_cons_self (k : κ) (box : Boxed Value) (entries : List (Slot Value)) :
    without k ((k, box) :: entries) = without k entries := by
  simp [without]

theorem without_cons_of_ne {k j : κ} (h : k ≠ j) (box : Boxed Value) (entries : List (Slot Value)) :
    without j ((k, box) :: entries) = (k, box) :: without j entries := by
  simp [without, h]

theorem find?_without_self (k : κ) (entries : List (Slot Value)) :
    find? k (without k entries) = none := by
  induction entries with
  | nil => rfl
  | cons e es ih =>
    obtain ⟨k', box⟩ := e
    by_cases h : k' = k
    · subst h
      rw [without_cons_self]
      exact ih
    · rw [without_cons_of_ne h, find?_cons_of_ne h]
      exact ih

theorem find?_without_of_ne {k j : κ} (hj : j ≠ k) (entries : List (Slot Value)) :
    find? j (without k entries) = find? j entries := by
  induction entries with
  | nil => rfl
  | cons e es ih =>
    obtain ⟨k', box⟩ := e
    by_cases h : k' = k
    · subst h
      rw [without_cons_self, find?_cons_of_ne hj.symm]
      exact ih
    · rw [without_cons_of_ne h]
      by_cases hk : k' = j
      · subst hk
        rw [find?_cons_self, find?_cons_self]
      · rw [find?_cons_of_ne hk, find?_cons_of_ne hk]
        exact ih

theorem nodup_without (k : κ) {entries : List (Slot Value)} (h : (entries.map (·.1)).Nodup) :
    ((without k entries).map (·.1)).Nodup :=
  List.Pairwise.sublist (List.Sublist.map _ List.filter_sublist) h

theorem not_mem_kinds_without (k : κ) (entries : List (Slot Value)) :
    k ∉ (without k entries).map (·.1) := by
  simp [without]

/-- Every box is stored under the kind that is inside. -/
def Typed (entries : List (Slot Value)) : Prop := ∀ e ∈ entries, e.2.1 = e.1

theorem Typed.without {entries : List (Slot Value)} (h : Typed entries) (k : κ) :
    Typed (without k entries) := fun e he => h e (List.mem_filter.mp he).1

omit [DecidableEq κ] in
theorem Typed.cons {entries : List (Slot Value)} (h : Typed entries) (k : κ) (v : Value k) :
    Typed ((k, ⟨k, v⟩) :: entries) := List.forall_mem_cons.mpr ⟨rfl, h⟩

end Slot

/-- A store with at most one value of each kind. -/
structure Slots (Value : κ → Type) where
  entries : List (Slot Value)
  nodup_kinds : (entries.map (·.1)).Nodup
  typed : Slot.Typed entries

namespace Slots

def empty : Slots Value := ⟨[], List.nodup_nil, fun _ h => nomatch h⟩

/-- The box under a kind. -/
def box? (s : Slots Value) (k : κ) : Option (Boxed Value) := Slot.find? k s.entries

def get? (s : Slots Value) (k : κ) : Option (Value k) := (s.box? k).bind (·.open? k)

def contains (s : Slots Value) (k : κ) : Bool := (s.box? k).isSome

def erase (s : Slots Value) (k : κ) : Slots Value :=
  ⟨Slot.without k s.entries, Slot.nodup_without k s.nodup_kinds, s.typed.without k⟩

/-- Store a value in place of the one of its kind. -/
def put (s : Slots Value) (k : κ) (v : Value k) : Slots Value :=
  ⟨(k, ⟨k, v⟩) :: Slot.without k s.entries,
    List.nodup_cons.2
      ⟨Slot.not_mem_kinds_without k s.entries, Slot.nodup_without k s.nodup_kinds⟩,
    (s.typed.without k).cons k v⟩

def size (s : Slots Value) : Nat := s.entries.length

/-- The box under a kind, or else a box with a default. -/
def boxD (s : Slots Value) (k : κ) (default : Value k) : Boxed Value :=
  (s.box? k).getD ⟨k, default⟩

theorem kind_of_box? {s : Slots Value} {k : κ} {box : Boxed Value} (h : s.box? k = some box) :
    box.1 = k := s.typed (k, box) (Slot.mem_of_find? h)

/-- Whatever is in the box under a kind, those who ask for the kind get it. -/
theorem isSome_open?_boxD (s : Slots Value) (k : κ) (default : Value k) :
    ((s.boxD k default).open? k).isSome = true := by
  apply Boxed.isSome_open?
  unfold boxD
  cases h : s.box? k with
  | none => rfl
  | some box => exact kind_of_box? h

/-- The value of a kind, or else a default. -/
def getD (s : Slots Value) (k : κ) (default : Value k) : Value k :=
  ((s.boxD k default).open? k).get (s.isSome_open?_boxD k default)

/-! ### What the operations do to the map -/

@[simp] theorem get?_empty (k : κ) : (empty : Slots Value).get? k = none := rfl

@[simp] theorem get?_put_self (s : Slots Value) (k : κ) (v : Value k) :
    (s.put k v).get? k = some v := by
  rw [get?, box?, put, Slot.find?_cons_self]
  exact Boxed.open?_self k v

theorem get?_put_of_ne (s : Slots Value) {k j : κ} (v : Value k) (h : j ≠ k) :
    (s.put k v).get? j = s.get? j := by
  rw [get?, box?, put, Slot.find?_cons_of_ne h.symm, Slot.find?_without_of_ne h]
  rfl

@[simp] theorem get?_erase_self (s : Slots Value) (k : κ) : (s.erase k).get? k = none := by
  rw [get?, box?, erase, Slot.find?_without_self]
  rfl

theorem get?_erase_of_ne (s : Slots Value) {k j : κ} (h : j ≠ k) :
    (s.erase k).get? j = s.get? j := by
  rw [get?, box?, erase, Slot.find?_without_of_ne h]
  rfl

/-- A kind is there exactly if it has a value: no box is refused. -/
theorem contains_eq (s : Slots Value) (k : κ) : s.contains k = (s.get? k).isSome := by
  rw [contains, get?]
  cases h : s.box? k with
  | none => rfl
  | some box => exact (Boxed.isSome_open? (kind_of_box? h)).symm

theorem getD_eq (s : Slots Value) (k : κ) (default : Value k) :
    s.getD k default = (s.get? k).getD default := by
  have hbox : s.box? k = none ∨ ∃ v : Value k, s.box? k = some ⟨k, v⟩ := by
    cases h : s.box? k with
    | none => exact .inl rfl
    | some box =>
      obtain ⟨k', v⟩ := box
      obtain rfl := kind_of_box? h
      exact .inr ⟨v, rfl⟩
  rcases hbox with h | ⟨v, h⟩
  · simp [getD, boxD, get?, h, Boxed.open?_self]
  · simp [getD, boxD, get?, h, Boxed.open?_self]

end Slots

end AnalysisHost

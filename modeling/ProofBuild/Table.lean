/-!
Tables of texts keyed by texts, kept in strictly increasing key order. The order of texts is that
of their characters' codes, which is also the byte order of their UTF-8 form. Environment
variables and recorded fingerprints are such tables. Each operation is described by what it
does to `get?`; two tables that answer every key alike are equal.
-/

namespace ProofBuild

/-- Keys strictly increase along the entries. -/
def Increasing (entries : List (String × String)) : Prop :=
  entries.Pairwise fun earlier later => earlier.1 < later.1

structure Table where
  entries : List (String × String)
  increasing : Increasing entries
  deriving DecidableEq

namespace Table

def empty : Table := ⟨[], List.Pairwise.nil⟩

instance : Inhabited Table := ⟨empty⟩
instance : EmptyCollection Table := ⟨empty⟩

/-- The value of the first entry with this key. -/
def find (key : String) : List (String × String) → Option String
  | [] => none
  | entry :: rest => if key = entry.1 then some entry.2 else find key rest

def get? (table : Table) (key : String) : Option String := find key table.entries

def size (table : Table) : Nat := table.entries.length

/-- Put a value at its place in the order, over an earlier value of the same key. -/
def place (key value : String) : List (String × String) → List (String × String)
  | [] => [(key, value)]
  | entry :: rest =>
      if key < entry.1 then (key, value) :: entry :: rest
      else if key = entry.1 then (key, value) :: rest
      else entry :: place key value rest

theorem mem_place {key value : String} {entries : List (String × String)}
    {entry : String × String} (member : entry ∈ place key value entries) :
    entry = (key, value) ∨ entry ∈ entries := by
  induction entries with
  | nil => simpa [place] using member
  | cons first rest ih =>
      simp only [place] at member
      split at member
      · simpa using member
      · split at member
        · rcases List.mem_cons.1 member with same | later
          · exact .inl same
          · exact .inr (List.mem_cons_of_mem _ later)
        · rcases List.mem_cons.1 member with same | later
          · exact .inr (same ▸ List.mem_cons_self)
          · exact (ih later).imp id (List.mem_cons_of_mem _)

theorem lt_of_not_lt_of_ne {left right : String} (notLess : ¬ left < right)
    (different : left ≠ right) : right < left := by
  apply Classical.byContradiction
  intro notMore
  exact different (String.le_antisymm (String.not_lt.1 notMore) (String.not_lt.1 notLess))

theorem increasing_place (key value : String) {entries : List (String × String)}
    (ordered : Increasing entries) : Increasing (place key value entries) := by
  induction entries with
  | nil => exact List.pairwise_singleton _ _
  | cons first rest ih =>
      have parted := List.pairwise_cons.1 ordered
      simp only [place]
      split
      · rename_i less
        refine List.pairwise_cons.2 ⟨?_, ordered⟩
        intro entry member
        rcases List.mem_cons.1 member with same | later
        · exact same ▸ less
        · exact String.lt_trans less (parted.1 entry later)
      · rename_i notLess
        split
        · rename_i same
          exact List.pairwise_cons.2 ⟨fun entry later => same ▸ parted.1 entry later, parted.2⟩
        · rename_i different
          refine List.pairwise_cons.2 ⟨?_, ih parted.2⟩
          intro entry member
          rcases mem_place member with same | later
          · exact same ▸ lt_of_not_lt_of_ne notLess different
          · exact parted.1 entry later

def insert (table : Table) (key value : String) : Table :=
  ⟨place key value table.entries, increasing_place key value table.increasing⟩

def erase (table : Table) (key : String) : Table :=
  ⟨table.entries.filter (·.1 ≠ key), List.Pairwise.filter _ table.increasing⟩

/-- Later pairs win over earlier ones of the same key. -/
def ofList (pairs : List (String × String)) : Table :=
  pairs.foldl (fun table pair => table.insert pair.1 pair.2) empty

@[simp] theorem get?_empty (key : String) : empty.get? key = none := rfl

theorem find_place (key other value : String) (entries : List (String × String)) :
    find other (place key value entries) =
      if other = key then some value else find other entries := by
  induction entries with
  | nil => simp [place, find]
  | cons first rest ih =>
      simp only [place]
      split
      · simp [find]
      · split
        · rename_i same
          by_cases this : other = key <;> simp [find, ← same, this]
        · rename_i different
          simp only [find, ih]
          by_cases this : other = first.1
          · simp [this, Ne.symm different]
          · simp [this]

@[simp] theorem get?_insert (table : Table) (key other value : String) :
    (table.insert key value).get? other = if other = key then some value else table.get? other :=
  find_place key other value table.entries

@[simp] theorem get?_erase (table : Table) (key other : String) :
    (table.erase key).get? other = if other = key then none else table.get? other := by
  show find other (table.entries.filter (·.1 ≠ key)) = _
  simp only [get?]
  induction table.entries with
  | nil => simp [find]
  | cons first rest ih =>
      by_cases dropped : first.1 = key
      · simp only [List.filter_cons, dropped, ne_eq, not_true_eq_false, decide_false,
          Bool.false_eq_true, ↓reduceIte, ih, find]
        by_cases this : other = key <;> simp [this]
      · simp only [List.filter_cons, ne_eq, dropped, not_false_eq_true, decide_true, ↓reduceIte,
          find, ih]
        by_cases this : other = first.1
        · simp [this, dropped]
        · simp [this]

theorem find_eq_none_of_below {key : String} {entries : List (String × String)}
    (below : ∀ entry ∈ entries, key < entry.1) : find key entries = none := by
  induction entries with
  | nil => rfl
  | cons first rest ih =>
      have less := below first List.mem_cons_self
      have different : key ≠ first.1 := fun same => String.lt_irrefl _ (same ▸ less)
      simp only [find, different, ↓reduceIte]
      exact ih fun entry later => below entry (List.mem_cons_of_mem _ later)

theorem entries_eq_of_find_eq {left right : List (String × String)} (leftOrdered : Increasing left)
    (rightOrdered : Increasing right) (agree : ∀ key, find key left = find key right) :
    left = right := by
  induction left generalizing right with
  | nil =>
      cases right with
      | nil => rfl
      | cons first rest => simpa [find] using agree first.1
  | cons one ones ih =>
      cases right with
      | nil => simpa [find] using agree one.1
      | cons two twos =>
          have leftParted := List.pairwise_cons.1 leftOrdered
          have rightParted := List.pairwise_cons.1 rightOrdered
          have sameKey : one.1 = two.1 := by
            apply Classical.byContradiction
            intro different
            by_cases less : one.1 < two.1
            · have absent : find one.1 (two :: twos) = none :=
                find_eq_none_of_below fun entry member => by
                  rcases List.mem_cons.1 member with same | later
                  · exact same ▸ less
                  · exact String.lt_trans less (rightParted.1 entry later)
              rw [← agree one.1] at absent
              simp [find] at absent
            · have more := lt_of_not_lt_of_ne less different
              have absent : find two.1 (one :: ones) = none :=
                find_eq_none_of_below fun entry member => by
                  rcases List.mem_cons.1 member with same | later
                  · exact same ▸ more
                  · exact String.lt_trans more (leftParted.1 entry later)
              rw [agree two.1] at absent
              simp [find] at absent
          have sameValue : one.2 = two.2 := by
            have here := agree one.1
            simpa [find, sameKey] using here
          have sameHead : one = two := Prod.ext sameKey sameValue
          subst sameHead
          congr 1
          refine ih leftParted.2 rightParted.2 fun key => ?_
          by_cases this : key = one.1
          · subst this
            rw [find_eq_none_of_below leftParted.1, find_eq_none_of_below rightParted.1]
          · simpa [find, this] using agree key

/-- A table is determined by the values it gives. -/
theorem ext_get? {left right : Table} (agree : ∀ key, left.get? key = right.get? key) :
    left = right := by
  have same := entries_eq_of_find_eq left.increasing right.increasing agree
  cases left
  cases right
  cases same
  rfl

end Table

end ProofBuild

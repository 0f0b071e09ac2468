import ProofBuild.Proofs.Markers
import ProofBuild.Proofs.Settled

/-!
The markers that a task reads. Path sets keep one spelling of each path, but in an accepted graph
with plain names no two crates share a marker in any spelling. Main statements: a task reads the
markers of crates below it only (`of_mem_markers_ofCrates`), and those of all its direct
dependencies (`marker_mem_markers_ofCrates`).
-/

namespace ProofBuild

namespace Path

theorem of_mem_fresh {seen : List (List Component)} {paths : List Path} {path : Path}
    (member : path ∈ fresh seen paths) : path ∈ paths := by
  induction paths generalizing seen with
  | nil => cases member
  | cons first rest ih =>
      unfold fresh at member
      split at member
      · exact List.mem_cons_of_mem first (ih member)
      · rcases List.mem_cons.mp member with same | later
        · exact same ▸ List.mem_cons_self
        · exact List.mem_cons_of_mem first (ih later)

theorem mem_fresh {seen : List (List Component)} {paths : List Path} {path : Path}
    (member : path ∈ paths) :
    path.components ∈ seen ∨ ∃ other ∈ fresh seen paths, Same other path := by
  induction paths generalizing seen with
  | nil => cases member
  | cons first rest ih =>
      unfold fresh
      rcases List.mem_cons.mp member with same | later
      · subst same
        split
        · rename_i known
          exact .inl known
        · exact .inr ⟨path, List.mem_cons_self, rfl⟩
      · split
        · exact ih later
        · rcases ih later with known | ⟨other, inside, alike⟩
          · rcases List.mem_cons.mp known with same | old
            · exact .inr ⟨first, List.mem_cons_self, same.symm⟩
            · exact .inl old
          · exact .inr ⟨other, List.mem_cons_of_mem first inside, alike⟩

theorem of_mem_addAll {paths more : List Path} {path : Path} (member : path ∈ addAll paths more) :
    path ∈ paths ∨ path ∈ more :=
  (List.mem_append.mp member).imp id of_mem_fresh

theorem mem_addAll_of_mem_left {paths more : List Path} {path : Path} (member : path ∈ paths) :
    path ∈ addAll paths more :=
  List.mem_append_left _ member

/-- What is added is there in some spelling. -/
theorem among_addAll {paths more : List Path} {path : Path} (member : path ∈ more) :
    path.Among (addAll paths more) := by
  rcases mem_fresh member with known | ⟨other, inside, alike⟩
  · obtain ⟨other, inside, same⟩ := List.mem_map.mp known
    exact ⟨other, List.mem_append_left _ inside, same⟩
  · exact ⟨other, List.mem_append_right _ inside, alike⟩

end Path

namespace Crate

/-- The markers of crates, on top of those gathered already. -/
def gather (gathered : List Path) (crates : List Crate) : List Path :=
  crates.foldl (fun all crate => Path.addAll all crate.markers) gathered

theorem markersWith_eq (marker : Path) (dependencies : List Crate) :
    markersWith marker dependencies = gather [marker] dependencies := rfl

theorem of_mem_gather {gathered : List Path} {crates : List Crate} {path : Path}
    (member : path ∈ gather gathered crates) :
    path ∈ gathered ∨ ∃ crate ∈ crates, path ∈ crate.markers := by
  induction crates generalizing gathered with
  | nil => exact .inl member
  | cons crate rest ih =>
      rcases ih member with old | ⟨other, inside, named⟩
      · rcases Path.of_mem_addAll old with before | new
        · exact .inl before
        · exact .inr ⟨crate, List.mem_cons_self, new⟩
      · exact .inr ⟨other, List.mem_cons_of_mem crate inside, named⟩

theorem mem_gather_of_mem {gathered : List Path} {crates : List Crate} {path : Path}
    (member : path ∈ gathered) : path ∈ gather gathered crates := by
  induction crates generalizing gathered with
  | nil => exact member
  | cons crate rest ih => exact ih (Path.mem_addAll_of_mem_left member)

theorem among_gather {gathered : List Path} {crates : List Crate} {crate : Crate} {path : Path}
    (inside : crate ∈ crates) (member : path ∈ crate.markers) :
    path.Among (gather gathered crates) := by
  induction crates generalizing gathered with
  | nil => cases inside
  | cons first rest ih =>
      rcases List.mem_cons.mp inside with same | later
      · subst same
        have added : path.Among (Path.addAll gathered crate.markers) := Path.among_addAll member
        obtain ⟨other, inside, alike⟩ := added
        have kept : other ∈ gather (Path.addAll gathered crate.markers) rest :=
          mem_gather_of_mem inside
        exact ⟨other, kept, alike⟩
      · exact ih later

end Crate

namespace Linkage

theorem of_mem_distinct {crates : List Crate} {crate : Crate} (member : crate ∈ distinct crates) :
    crate ∈ crates := by
  have goes : ∀ (crates : List Crate) (seen : List String),
      crate ∈ distinct.go seen crates → crate ∈ crates := by
    intro crates
    induction crates with
    | nil => exact fun _ member => member
    | cons first rest ih =>
        intro seen member
        unfold distinct.go at member
        split at member
        · exact List.mem_cons_of_mem first (ih seen member)
        · rcases List.mem_cons.mp member with same | later
          · exact same ▸ List.mem_cons_self
          · exact List.mem_cons_of_mem first (ih _ later)
  exact goes crates [] member

/-- Every identity stays. -/
theorem mem_distinct {crates : List Crate} {crate : Crate} (member : crate ∈ crates) :
    ∃ other ∈ distinct crates, other.identity = crate.identity := by
  have goes : ∀ (crates : List Crate) (seen : List String), crate ∈ crates →
      crate.identity ∈ seen ∨
        ∃ other ∈ distinct.go seen crates, other.identity = crate.identity := by
    intro crates
    induction crates with
    | nil => exact fun _ member => by cases member
    | cons first rest ih =>
        intro seen member
        unfold distinct.go
        rcases List.mem_cons.mp member with same | later
        · subst same
          split
          · rename_i known
            exact .inl known
          · exact .inr ⟨crate, List.mem_cons_self, rfl⟩
        · split
          · exact ih seen later
          · rcases ih (first.identity :: seen) later with known | ⟨other, inside, same⟩
            · rcases List.mem_cons.mp known with same | old
              · exact .inr ⟨first, List.mem_cons_self, same.symm⟩
              · exact .inl old
            · exact .inr ⟨other, List.mem_cons_of_mem first inside, same⟩
  exact (goes crates [] member).resolve_left (by simp)

theorem markers_ofCrates (crates : List Crate) :
    (ofCrates crates).markers = Crate.gather [] (distinct crates) := rfl

end Linkage

namespace Graph
variable {graph : Graph} {directory : Path} (settled : Settled directory graph.crates)
include settled

theorem mem_dependencies_iff {upper lower : Crate} :
    lower ∈ graph.dependencies upper ↔ lower ∈ graph.crates ∧ lower.name ∈ upper.dependencies :=
  settled.mem_select

theorem mem_crates_of_below {upper lower : Crate} (below : graph.Below upper lower) :
    lower ∈ graph.crates := by
  cases below with
  | single step => exact ((mem_dependencies_iff settled).mp step).1
  | tail _ step => exact ((mem_dependencies_iff settled).mp step).1

theorem markers_eq {crate : Crate} (member : crate ∈ graph.crates) :
    crate.markers = Crate.gather [crate.marker] (graph.dependencies crate) := by
  have parts : ∀ crates, Settled directory crates → crates <+: graph.crates →
      ∀ crate ∈ crates, crate.markers = Crate.gather [crate.marker] (graph.dependencies crate) := by
    intro crates below
    induction below with
    | none => simp
    | next below names identities marker ready markers ih =>
        intro opens crate member
        have opensBelow := (List.prefix_append _ _).trans opens
        rcases List.mem_append.mp member with old | new
        · exact ih opensBelow crate old
        · rw [List.mem_singleton.mp new, markers, Crate.markersWith_eq]
          obtain ⟨rest, whole⟩ := opensBelow
          rw [dependencies, ← whole, Crate.select_append ready]
  exact parts graph.crates settled (List.prefix_refl _) crate member

theorem own_marker_mem {crate : Crate} (member : crate ∈ graph.crates) :
    crate.marker ∈ crate.markers := by
  rw [markers_eq settled member]
  exact Crate.mem_gather_of_mem List.mem_cons_self

/-- A crate knows its own marker and those of crates below it. -/
theorem of_mem_markers {crate : Crate} (member : crate ∈ graph.crates) {path : Path}
    (known : path ∈ crate.markers) :
    ∃ lower, (lower = crate ∨ graph.Below crate lower) ∧ path = lower.marker := by
  -- By induction on how the crates were settled, for every opening part of them.
  have parts : ∀ crates, Settled directory crates → crates <+: graph.crates →
      ∀ crate ∈ crates, ∀ path ∈ crate.markers,
        ∃ lower, (lower = crate ∨ graph.Below crate lower) ∧ path = lower.marker := by
    intro crates below
    induction below with
    | none => simp
    | next below names identities marker ready markers ih =>
        intro opens crate member path known
        have opensBelow := (List.prefix_append _ _).trans opens
        rcases List.mem_append.mp member with old | new
        · exact ih opensBelow crate old path known
        · rw [markers_eq settled (opens.subset member)] at known
          rw [List.mem_singleton.mp new] at known ⊢
          rcases Crate.of_mem_gather known with own | ⟨lower, wanted, inside⟩
          · exact ⟨_, .inl rfl, List.mem_singleton.mp own⟩
          · obtain ⟨_, named⟩ := (mem_dependencies_iff settled).mp wanted
            obtain ⟨earlier, place, same⟩ := ready lower.name named
            have found := (mem_dependencies_iff settled).mp wanted
            have here : earlier = lower :=
              settled.eq_of_name_eq (opensBelow.subset place) found.1 same
            obtain ⟨deep, reached, marked⟩ := ih opensBelow earlier place path (here ▸ inside)
            refine ⟨deep, .inr ?_, marked⟩
            rcases reached with same | further
            · rw [same, here]
              exact .single wanted
            · exact .head wanted (here ▸ further)
  exact parts graph.crates settled (List.prefix_refl _) crate member path known

/-- A task reads the markers of crates below it only. -/
theorem of_mem_markers_ofCrates {crate : Crate} {path : Path}
    (known : path ∈ (Linkage.ofCrates (graph.dependencies crate)).markers) :
    ∃ lower, graph.Below crate lower ∧ path = lower.marker := by
  rw [Linkage.markers_ofCrates] at known
  obtain ⟨direct, distinct, inside⟩ := (Crate.of_mem_gather known).resolve_left (by simp)
  have wanted := Linkage.of_mem_distinct distinct
  obtain ⟨lower, reached, marked⟩ :=
    of_mem_markers settled ((mem_dependencies_iff settled).mp wanted).1 inside
  refine ⟨lower, ?_, marked⟩
  rcases reached with same | further
  · rw [same]
    exact .single wanted
  · exact .head wanted further

section Plain
variable (plain : ∀ crate ∈ graph.crates, '/' ∉ crate.name.toList)
include plain

/-- No two crates share a marker in any spelling. -/
theorem eq_of_same_marker {one two : Crate} (first : one ∈ graph.crates)
    (second : two ∈ graph.crates) (same : Path.Same one.marker two.marker) : one = two := by
  rw [settled.marker_eq one first, settled.marker_eq two second] at same
  have names := Path.eq_of_same_child (Crate.ordinaryName_markerName (plain one first))
    (Crate.ordinaryName_markerName (plain two second)) same
  exact settled.eq_of_name_eq first second (Crate.markerName_inj.mp names)

/-- A task reads the markers of all its direct dependencies. -/
theorem marker_mem_markers_ofCrates {upper lower : Crate} (wanted : lower ∈ graph.dependencies upper) :
    lower.marker ∈ (Linkage.ofCrates (graph.dependencies upper)).markers := by
  have found := ((mem_dependencies_iff settled).mp wanted).1
  obtain ⟨other, distinct, identity⟩ := Linkage.mem_distinct wanted
  have otherFound := ((mem_dependencies_iff settled).mp (Linkage.of_mem_distinct distinct)).1
  cases List.inj_on_of_nodup_map settled.nodup_identities otherFound found identity
  have known : lower.marker.Among (Linkage.ofCrates (graph.dependencies upper)).markers :=
    Crate.among_gather distinct (own_marker_mem settled found)
  obtain ⟨path, inside, same⟩ := known
  obtain ⟨deep, below, rfl⟩ := of_mem_markers_ofCrates settled inside
  cases eq_of_same_marker settled plain (mem_crates_of_below settled below) found same
  exact inside

end Plain

end Graph

end ProofBuild

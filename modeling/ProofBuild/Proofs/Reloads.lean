import ProofBuild.Proofs.ReadBack

/-!
Recorded fingerprints over a save and a load. What a cache holds of a unit is what the last call left
that recorded or invalidated it, whatever was looked up in between. A directory that a file could be
written into is there, so a second save finds it, and writes over the file what the file holds. Main
statement: after a save, a load gives back what the calls left, with the look-ups at zero, and saving
it again changes nothing (`reloads_after_save`).
-/

namespace ProofBuild

namespace Path
variable {base : Path} {name : String} (ordinary : OrdinaryName name)
include ordinary

theorem exists_text_child (base : Path) : ∃ rest, (base.child name).text = base.text ++ rest := by
  unfold child join
  rw [if_neg (by rw [isAbsolute_of_plain ordinary.plain]; simp)]
  split
  · exact ⟨_, rfl⟩
  · exact ⟨_, rfl⟩
  · exact ⟨_, String.append_assoc⟩

/-- A directory that a usable path leads into can be named on its own, unless its text is empty. -/
theorem address_of_child {address : Address} (solid : base.text ≠ "")
    (addressed : (base.child name).address = .ok address) :
    base.address = .ok ⟨base.isAbsolute, base.steps, base.text.toList.getLast? = some '/'⟩ := by
  rcases of_address_eq_ok addressed with ⟨zero, _, short, _⟩
  rcases exists_text_child ordinary base with ⟨rest, text⟩
  rw [text, String.toList_append] at zero
  rw [text, String.utf8ByteSize_append] at short
  apply address_eq_ok _ solid (by omega)
  exact fun member => zero (List.mem_append_left _ member)

end Path

namespace FileTree
variable {tree : FileTree} {path : Path}

/-- A dot behind a walk asks for a directory and stays there. -/
theorem eq_of_descend_dots {here place : Location} (asked : Bool)
    (arrives : tree.descend here (if asked then ["."] else []) = .ok place) : place = here := by
  cases asked with
  | false =>
      cases arrives
      rfl
  | true =>
      simp only [↓reduceIte, descend] at arrives
      split at arrives
      · cases arrives
      · cases arrives
      · cases arrives
        rfl

/-- A directory that is there cannot be made. -/
theorem makeDirectory_of_isDirectory (there : tree.isDirectory path = true) :
    tree.makeDirectory path = .error .alreadyExists := by
  rw [isDirectory_iff, status, locate] at there
  rcases bind_eq_ok there with ⟨place, located, lies⟩
  rcases bind_eq_ok located with ⟨address, addressed, arrives⟩
  rcases Path.of_address_eq_ok addressed with ⟨_, _, _, rfl⟩
  rcases List.eq_nil_or_concat path.steps with still | ⟨front, last, steps⟩
  · rw [makeDirectory, target_eq_fixed addressed still]
    rfl
  · rw [List.concat_eq_append] at steps
    dsimp only at arrives
    rw [steps, List.append_assoc, descend_append] at arrives
    rcases bind_eq_ok arrives with ⟨around, walked, ends⟩
    rw [List.singleton_append, descend] at ends
    cases outer : tree.node? around with
    | none => simp [outer] at ends
    | some node =>
        cases node with
        | file content executable => simp [outer] at ends
        | directory =>
            simp only [makeDirectory, target, addressed, bind, Except.bind, steps, walked, outer,
              List.getLast?_concat, List.dropLast_concat]
            by_cases dots : last = "." ∨ last = ".."
            · simp [dots]
            · rcases not_or.mp dots with ⟨dot, up⟩
              simp only [outer, dot, up, ↓reduceIte] at ends
              by_cases long : nameLimit < last.utf8ByteSize
              · simp [long] at ends
              · rw [if_neg long] at ends
                have arrived := eq_of_descend_dots _ ends
                subst arrived
                cases inner : tree.node? (last :: around) with
                | none => simp [inner] at lies
                | some node => simp [dot, up, long, inner]

/-- Nothing is made where the directory is there. -/
theorem makeDirectories_of_isDirectory (solid : path.text ≠ "")
    (there : tree.isDirectory path = true) : tree.makeDirectories path = (tree, .ok ()) := by
  rcases ancestors_eq_cons solid with ⟨above, ancestors⟩
  rw [makeDirectories, ancestors,
    firstDirectory_of_present [] above (makeDirectory_of_isDirectory there) there]
  rfl

/-- A directory that a name was found in, or could be put into, is there. -/
theorem isDirectory_of_target_child {base : Path} {name : String} (ordinary : Path.OrdinaryName name)
    (solid : base.text ≠ "") {target : Target} (reached : tree.target (base.child name) = .ok target) :
    tree.isDirectory base = true := by
  have last : Path.OrdinaryName (base.child name).lastPiece := by
    rw [Path.lastPiece_child ordinary.plain]
    exact ordinary
  rw [target_eq_of_lastPiece last, Path.steps_child ordinary, List.dropLast_concat] at reached
  rcases bind_eq_ok reached with ⟨address, addressed, walk⟩
  rcases bind_eq_ok walk with ⟨around, arrives, inside⟩
  rcases Path.of_address_eq_ok addressed with ⟨_, _, _, rfl⟩
  have start : tree.startOf ⟨base.isAbsolute, base.steps, base.text.toList.getLast? = some '/'⟩ =
      tree.startOf ⟨(base.child name).isAbsolute, (base.child name).steps,
        (base.child name).text.toList.getLast? = some '/'⟩ := by
    rw [startOf, startOf, Path.isAbsolute_child ordinary]
  cases lies : tree.node? around with
  | none => simp [lies] at inside
  | some node =>
      cases node with
      | file content executable => simp [lies] at inside
      | directory =>
          rw [isDirectory_iff, status, locate, Path.address_of_child ordinary solid addressed]
          simp only [bind, Except.bind, start, descend_append, arrives]
          by_cases asked : base.text.toList.getLast? = some '/'
          · simp [asked, descend, lies]
          · simp [asked, descend, lies]

/-- Writing over a file what the file holds changes nothing. -/
theorem write_again {content : Bytes} (ordinary : Path.OrdinaryName path.lastPiece)
    (holds : tree.read path = .ok content) :
    ∃ after, tree.write path content = .ok after ∧
      after.workingDirectory = tree.workingDirectory ∧ ∀ place, after.node? place = tree.node? place := by
  rcases (read_eq_ok_iff ..).mp holds with ⟨executable, found⟩
  rcases (status_eq_ok_iff_target ordinary ..).mp found with ⟨around, reached, lies⟩
  have inside : tree.Directory around := directory_of_node? lies
  have free : ¬ tree.Directory (path.lastPiece :: around) := by simp [Directory, lies]
  refine ⟨tree.setFile path.lastPiece around content executable, ?_, ?_, ?_⟩
  · simp [write, reached, bind, Except.bind, lies]
  · exact workingDirectory_setFile ..
  · intro place
    rw [node?_setFile content executable inside free]
    split
    · rename_i same
      rw [same, lies]
    · rfl

end FileTree

namespace Cache
open FileTree

/-- What can be done with a cache between a load and a save. -/
inductive Call where
  | record (unit fingerprint : String)
  | invalidate (unit : String)
  /-- a look-up, in the files of its time -/
  | lookUp (tree : FileTree) (unit : String) (marker : Path) (fingerprint : String)

def perform (cache : Cache) : Call → Cache
  | .record unit fingerprint => cache.record unit fingerprint
  | .invalidate unit => cache.invalidate unit
  | .lookUp tree unit marker fingerprint =>
      cache.counted (decide (cache.Fresh tree unit marker fingerprint))

def performAll (cache : Cache) (calls : List Call) : Cache := calls.foldl perform cache

/-- What a call leaves of a unit's entry, if it touches it. -/
def Call.leaves? (unit : String) : Call → Option (Option String)
  | .record name fingerprint => if name = unit then some (some fingerprint) else none
  | .invalidate name => if name = unit then some none else none
  | .lookUp .. => none

theorem entry?_perform (cache : Cache) (call : Call) (unit : String) :
    entry? (cache.perform call) unit = (call.leaves? unit).getD (cache.entry? unit) := by
  cases call with
  | record name fingerprint =>
      by_cases same : unit = name
      · simp [perform, record, entry?, Call.leaves?, same]
      · simp [perform, record, entry?, Call.leaves?, same, Ne.symm same]
  | invalidate name =>
      by_cases same : unit = name
      · simp [perform, invalidate, entry?, Call.leaves?, same]
      · simp [perform, invalidate, entry?, Call.leaves?, same, Ne.symm same]
  | lookUp tree name marker fingerprint => rfl

/-- The last call that touches a unit's entry decides it. -/
theorem entry?_performAll (cache : Cache) (calls : List Call) (unit : String) :
    entry? (cache.performAll calls) unit =
      (calls.reverse.findSome? (Call.leaves? unit)).getD (cache.entry? unit) := by
  induction calls generalizing cache with
  | nil => rfl
  | cons call rest ih =>
      have onward := ih (cache.perform call)
      rw [entry?_perform] at onward
      rw [List.reverse_cons, List.findSome?_append, performAll, List.foldl_cons]
      refine onward.trans ?_
      cases rest.reverse.findSome? (Call.leaves? unit) with
      | some left => rfl
      | none => cases touched : call.leaves? unit <;> simp [touched]

/-- A directory that was saved into is found again. -/
theorem makeDirectories_of_read {tree : FileTree} {directory : Path} {content : Bytes}
    (holds : tree.read (pathIn directory) = .ok content) :
    tree.makeDirectories directory = (tree, .ok ()) := by
  by_cases blank : directory.text = ""
  · rw [makeDirectories, Path.ancestors, climb_of_blank blank]
    rfl
  · rcases (read_eq_ok_iff ..).mp holds with ⟨executable, found⟩
    rcases (status_eq_ok_iff_target (ordinaryName_lastPiece_pathIn directory) ..).mp found with
      ⟨around, reached, _⟩
    exact makeDirectories_of_isDirectory blank
      (isDirectory_of_target_child ordinaryName_file blank reached)

/-- A second save finds what the first one wrote and leaves everything as it is. -/
theorem save_again (cache : Cache) {tree : FileTree} {directory : Path}
    (holds : tree.read (pathIn directory) = .ok (Utf8.encode cache.encode)) :
    ∃ again, cache.save tree directory = (again, .ok ()) ∧
      again.read (pathIn directory) = .ok (Utf8.encode cache.encode) ∧
      again.workingDirectory = tree.workingDirectory ∧
      ∀ place, again.node? place = tree.node? place := by
  have ordinary := ordinaryName_lastPiece_pathIn directory
  rcases write_again ordinary holds with ⟨again, written, working, nodes⟩
  refine ⟨again, ?_, (of_write ordinary written).2, working, nodes⟩
  simp only [save, makeDirectories_of_read holds, written]

/-- Let any calls be made on a cache, and let it be saved. Then a load succeeds and gives the entries of
that moment, which are what the last calls left that touched them, and no look-ups; and saving what
was loaded succeeds and leaves the file with the same bytes and all other files as they are. -/
theorem reloads_after_save (cache : Cache) (calls : List Call) {tree after : FileTree}
    {directory : Path} (saved : (cache.performAll calls).save tree directory = (after, .ok ())) :
    ∃ loaded, load after directory = .ok loaded ∧
      loaded.entries = (cache.performAll calls).entries ∧ loaded.lookups = .zero ∧
      (∀ unit, loaded.entry? unit =
        (calls.reverse.findSome? (Call.leaves? unit)).getD (cache.entry? unit)) ∧
      ∃ again, loaded.save after directory = (again, .ok ()) ∧
        (∃ content, after.read (pathIn directory) = .ok content ∧
          again.read (pathIn directory) = .ok content) ∧
        again.workingDirectory = after.workingDirectory ∧
        ∀ place, again.node? place = after.node? place := by
  have loads := (of_save saved).2
  have holds : after.read (pathIn directory) = .ok (Utf8.encode (cache.performAll calls).encode) := by
    rcases save_cases saved with ⟨_, failed, _⟩ | ⟨_, put⟩
    · cases failed
    · exact (of_write (ordinaryName_lastPiece_pathIn directory) put).2
  refine ⟨_, loads, rfl, rfl, entry?_performAll cache calls, ?_⟩
  -- The look-ups are not written, so the loaded cache has the text of the saved one.
  rcases save_again ⟨(cache.performAll calls).entries, .zero⟩ holds with
    ⟨again, savedAgain, same, working, nodes⟩
  exact ⟨again, savedAgain, ⟨_, holds, same⟩, working, nodes⟩

/-- Calls over two units, one with characters that are escaped, into a directory that is not there. -/
def quotedCalls : List Call := [
  .record "a \"b\"\n" "\\",
  .record "c" "fp",
  .lookUp (bare []) "c" ⟨"out/c.success"⟩ "fp",
  .invalidate "c",
  .record "" ""]

theorem reloads_after_save_quoted :
    ∃ after, (empty.performAll quotedCalls).save (bare []) ⟨"out"⟩ = (after, .ok ()) ∧
      ∃ loaded, load after ⟨"out"⟩ = .ok loaded ∧ loaded.lookups = .zero ∧
        loaded.entry? "a \"b\"\n" = some "\\" ∧ loaded.entry? "c" = none ∧
        loaded.entry? "" = some "" := by
  have ends : ((empty.performAll quotedCalls).save (bare []) ⟨"out"⟩).2 = .ok () := by decide +kernel
  have saved : (empty.performAll quotedCalls).save (bare []) ⟨"out"⟩ =
      (((empty.performAll quotedCalls).save (bare []) ⟨"out"⟩).1, .ok ()) := Prod.ext rfl ends
  obtain ⟨loaded, loads, _, lookups, entries, _⟩ := reloads_after_save empty quotedCalls saved
  exact ⟨_, saved, loaded, loads, lookups, entries _, entries _, entries _⟩

end Cache

end ProofBuild

import ConfigTables.Files.Output
import ConfigTables.Proofs.Result
import Mathlib.Logic.Function.Basic

/-!
    What stands at the places of a tree. Every change of the files is a change of what stands at one
    place or two, and leaves all other places alone; the making of directories only puts directories
    where nothing was. The place that a path leads to depends on its steps, and whether it leads
    there only on the directories that there are. -/

namespace ConfigTables

/-- What stands at a place. The entries of a directory stand at places of their own. -/
inductive Standing where
  | file (content : ByteArray)
  | directory

/-- The bytes of what stands at a place, if it is a file. -/
def Standing.content? : Standing → Option ByteArray
  | file content => some content
  | directory => none

namespace Node
variable {n root new root' : Node} {name name' : String} {place : Place}
  {entries : List (String × Node)}

/-- What a node stands for. -/
def standing : Node → Standing
  | file content => .file content
  | directory _ => .directory

/-- What stands at a place below a node. -/
def at? (n : Node) (place : Place) : Option Standing := (n.get? place).map standing

theorem at?_nil (n : Node) : n.at? [] = some n.standing := by
  cases n <;> rfl

theorem at?_directory_cons (entries : List (String × Node)) (name : String) (rest : Place) :
    (directory entries).at? (name :: rest) = (child? name entries).bind (·.at? rest) := by
  rw [at?, get?]
  cases child? name entries <;> rfl

/-- Only a directory has something below it. -/
theorem at?_append_of_not_directory (h : n.at? place ≠ some .directory) {rest : Place}
    (hrest : rest ≠ []) : n.at? (place ++ rest) = none := by
  obtain ⟨first, rest, rfl⟩ := List.exists_cons_of_ne_nil hrest
  induction place generalizing n with
  | nil =>
    cases n with
    | file content => rfl
    | directory entries => exact absurd (at?_nil _) h
  | cons name place ih =>
    cases n with
    | file content => rfl
    | directory entries =>
      rw [at?_directory_cons] at h
      rw [List.cons_append, at?_directory_cons]
      cases hchild : child? name entries with
      | none => rfl
      | some child =>
        rw [hchild] at h
        exact ih h

/-! ### One entry -/

theorem child?_setEntry (name : String) (n : Node) (entries : List (String × Node)) :
    child? name' (setEntry name n entries) =
      if name' = name then some n else child? name' entries := by
  induction entries with
  | nil => by_cases h : name' = name <;> simp [setEntry, child?, h, eq_comm]
  | cons entry rest ih =>
    rw [setEntry]
    unfold child? at ih ⊢
    by_cases hentry : entry.1 = name
    · rw [if_pos hentry]
      by_cases h : name' = name
      · simp [h]
      · have hfirst : entry.1 ≠ name' := fun heq => h (heq.symm.trans hentry)
        simp [h, hfirst, Ne.symm h]
    · rw [if_neg hentry, List.find?_cons, List.find?_cons]
      by_cases hfirst : entry.1 = name'
      · have h : name' ≠ name := fun heq => hentry (hfirst.trans heq)
        simp [hfirst, h]
      · simp only [hfirst, decide_false]
        exact ih

theorem child?_filter (name : String) (entries : List (String × Node)) :
    child? name' (entries.filter (·.1 ≠ name)) =
      if name' = name then none else child? name' entries := by
  unfold child?
  rw [List.find?_filter]
  by_cases h : name' = name
  · subst h
    simp [List.find?_eq_none]
  · rw [if_neg h]
    congr 2
    funext entry
    by_cases hentry : entry.1 = name' <;> simp [hentry, h]

/-! ### One place -/

/-- What is put at a place below a directory changes one entry of it. -/
theorem put?_cons_eq_some (h : (directory entries).put? (name :: place) new = some root') :
    ∃ child', root' = directory (setEntry name child' entries) ∧
      (place = [] ∧ child' = new ∨
        ∃ child, child? name entries = some child ∧ child.put? place new = some child') := by
  cases place with
  | nil =>
    cases h
    exact ⟨new, rfl, .inl ⟨rfl, rfl⟩⟩
  | cons next place =>
    rw [put?.eq_4 _ _ _ _ (List.cons_ne_nil _ _)] at h
    split at h
    · cases h
    · obtain ⟨child', hchild', rfl⟩ := Option.map_eq_some_iff.1 h
      exact ⟨child', rfl, .inr ⟨_, ‹_›, hchild'⟩⟩

/-- A node that is put at a place has its own places there. -/
theorem at?_put?_append (h : root.put? place new = some root') (rest : Place) :
    root'.at? (place ++ rest) = new.at? rest := by
  induction place generalizing root root' with
  | nil =>
    cases root <;> cases h <;> rfl
  | cons name place ih =>
    cases root with
    | file content => cases h
    | directory entries =>
      obtain ⟨child', rfl, ⟨rfl, rfl⟩ | ⟨child, -, hchild'⟩⟩ := put?_cons_eq_some h
      · rw [List.cons_append, at?_directory_cons, child?_setEntry, if_pos rfl]
        rfl
      · rw [List.cons_append, at?_directory_cons, child?_setEntry, if_pos rfl]
        exact ih hchild'

/-- Other places are as they were. -/
theorem at?_put?_of_not_prefix {other : Place} (h : root.put? place new = some root')
    (hother : ¬place <+: other) : root'.at? other = root.at? other := by
  induction place generalizing root root' other with
  | nil => exact absurd List.nil_prefix hother
  | cons name place ih =>
    cases root with
    | file content => cases h
    | directory entries =>
      obtain ⟨child', rfl, hput⟩ := put?_cons_eq_some h
      cases other with
      | nil => rfl
      | cons name' other =>
        rw [at?_directory_cons, at?_directory_cons, child?_setEntry]
        split
        · rename_i hname
          subst hname
          rw [List.prefix_cons_inj] at hother
          obtain ⟨rfl, rfl⟩ | ⟨child, hchild, hchild'⟩ := hput
          · exact absurd List.nil_prefix hother
          · rw [hchild]
            exact ih hchild' hother
        · rfl

/-- What is taken away below a directory changes one entry of it, or nothing. -/
theorem at?_remove_cons (name : String) (place : Place) (entries : List (String × Node))
    (name' : String) (rest : Place) :
    ((directory entries).remove (name :: place)).at? (name' :: rest) =
      if name' = name then
        (if place = [] then none else (child? name entries).bind fun n => (n.remove place).at? rest)
      else (directory entries).at? (name' :: rest) := by
  cases place with
  | nil =>
    rw [remove, at?_directory_cons, child?_filter, at?_directory_cons]
    split <;> rfl
  | cons next place =>
    rw [remove.eq_4 _ _ _ (List.cons_ne_nil _ _), at?_directory_cons]
    cases hchild : child? name entries with
    | none =>
      rw [at?_directory_cons]
      split
      · rename_i hname
        rw [hname, hchild, if_neg (List.cons_ne_nil _ _)]
        rfl
      · rfl
    | some child =>
      rw [at?_directory_cons, child?_setEntry]
      split
      · rw [if_neg (List.cons_ne_nil _ _)]
        rfl
      · rfl

/-- Nothing is left at a place from which something was taken away. -/
theorem at?_remove_append (hplace : place ≠ []) (rest : Place) :
    (root.remove place).at? (place ++ rest) = none := by
  induction place generalizing root with
  | nil => exact absurd rfl hplace
  | cons name place ih =>
    cases root with
    | file content => rfl
    | directory entries =>
      rw [List.cons_append, at?_remove_cons, if_pos rfl]
      split
      · rfl
      · rename_i hne
        cases child? name entries with
        | none => rfl
        | some child => exact ih hne

theorem at?_remove_cons_nil (name : String) (place : Place) (entries : List (String × Node)) :
    ((directory entries).remove (name :: place)).at? [] = some .directory := by
  cases place with
  | nil => rfl
  | cons next place =>
    rw [remove.eq_4 _ _ _ (List.cons_ne_nil _ _)]
    cases child? name entries <;> rfl

theorem at?_remove_of_not_prefix {other : Place} (hother : ¬place <+: other) :
    (root.remove place).at? other = root.at? other := by
  induction place generalizing root other with
  | nil => exact absurd List.nil_prefix hother
  | cons name place ih =>
    cases root with
    | file content => rfl
    | directory entries =>
      cases other with
      | nil => rw [at?_remove_cons_nil, at?_nil, standing]
      | cons name' other =>
        rw [at?_remove_cons]
        split
        · rename_i hname
          subst hname
          rw [List.prefix_cons_inj] at hother
          rw [if_neg (by rintro rfl; exact hother List.nil_prefix), at?_directory_cons]
          cases child? name' entries with
          | none => rfl
          | some child => exact ih hother
        · rfl

end Node

namespace FileTree
variable {t t' t'' : FileTree} {path : String} {place place' : Place} {content : ByteArray}

/-- What stands at a place of a tree. -/
def at? (t : FileTree) (place : Place) : Option Standing := t.root.at? place

/-- The bytes of the file at a place, if there is one. -/
def fileAt? (t : FileTree) (place : Place) : Option ByteArray :=
  (t.at? place).bind Standing.content?

theorem isDirectoryAt_iff : t.isDirectoryAt place = true ↔ t.at? place = some .directory := by
  unfold isDirectoryAt at? Node.at?
  cases t.root.get? place with
  | none => simp
  | some n => cases n <;> simp [Node.isDirectory, Node.standing]

theorem fileAt?_eq_some_iff :
    t.fileAt? place = some content ↔ t.at? place = some (.file content) := by
  unfold fileAt?
  cases t.at? place with
  | none => simp
  | some s => cases s <;> simp [Standing.content?]

theorem fileAt?_update {s : Option Standing} (h : t'.at? = Function.update t.at? place s) :
    t'.fileAt? = Function.update t.fileAt? place (s.bind Standing.content?) := by
  have hcomp : t'.fileAt? = (·.bind Standing.content?) ∘ t'.at? := rfl
  rw [hcomp, h, Function.comp_update]
  rfl

/-! ### The places of paths -/

/-- The place that a step leads to. -/
def placeBehind (place : Place) : Path.Component → Place
  | .root => []
  | .current => place
  | .parent => place.dropLast
  | .name n => place ++ [n]

/-- The place that the steps of a path lead to, when they lead anywhere. -/
def placeOf (t : FileTree) (path : String) : Place :=
  (Path.components path).foldl placeBehind t.workingDirectory

theorem foldl_placeBehind_names (place : Place) (names : List String) :
    (names.map Path.Component.name).foldl placeBehind place = place ++ names := by
  induction names generalizing place with
  | nil => simp
  | cons n names ih => simp [placeBehind, ih]

/-- A path that ends in a name leads behind the place that the steps before it lead to. -/
theorem placeOf_concat (t : FileTree) {steps : List Path.Component} {n : String}
    (h : Path.components path = steps ++ [.name n]) :
    t.placeOf path = steps.foldl placeBehind t.workingDirectory ++ [n] := by
  rw [placeOf, h, List.foldl_append]
  rfl

theorem enter_eq_ok_iff : t.enter place = .ok () ↔ t.isDirectoryAt place = true := by
  unfold enter isDirectoryAt
  cases t.root.get? place with
  | none => simp
  | some n => cases n <;> simp [Node.isDirectory]

theorem walk_eq_ok {steps : List Path.Component} (h : t.walk place steps = .ok place') :
    place' = steps.foldl placeBehind place := by
  induction steps generalizing place with
  | nil => cases h; rfl
  | cons step steps ih =>
    cases step with
    | root => exact ih h
    | current => exact ih h
    | parent =>
      obtain ⟨_, _, h⟩ := bind_eq_ok_iff.1 h
      exact ih h
    | name n =>
      obtain ⟨_, _, h⟩ := bind_eq_ok_iff.1 h
      split at h
      · exact ih h
      · cases h

theorem place?_eq_some_iff : t.place? path = some place ↔
    Path.isUsable path = true ∧ t.walk t.workingDirectory (Path.components path) = .ok place := by
  unfold place? locate
  split
  · simp only [‹Path.isUsable path = true›, true_and]
    cases t.walk t.workingDirectory (Path.components path) <;> simp [Except.toOption]
  · simp_all [Except.toOption]

theorem placeOf_of_place? (h : t.place? path = some place) : place = t.placeOf path :=
  walk_eq_ok (place?_eq_some_iff.1 h).2

/-! ### Later states -/

/-- A state of the files after another one: no directory is gone. -/
structure Later (t t' : FileTree) : Prop where
  workingDirectory : t'.workingDirectory = t.workingDirectory
  directories : ∀ place, t.isDirectoryAt place = true → t'.isDirectoryAt place = true

theorem Later.refl (t : FileTree) : Later t t := ⟨rfl, fun _ h => h⟩

theorem Later.trans (h : Later t t') (h' : Later t' t'') : Later t t'' where
  workingDirectory := h'.workingDirectory.trans h.workingDirectory
  directories := fun place hplace => h'.directories place (h.directories place hplace)

theorem Later.placeOf (h : Later t t') (path : String) : t'.placeOf path = t.placeOf path := by
  rw [FileTree.placeOf, FileTree.placeOf, h.workingDirectory]

theorem Later.walk {steps : List Path.Component} (h : Later t t')
    (hwalk : t.walk place steps = .ok place') : t'.walk place steps = .ok place' := by
  induction steps generalizing place with
  | nil => exact hwalk
  | cons step steps ih =>
    have henter : ∀ {place}, t.enter place = .ok () → t'.enter place = .ok () := fun hplace =>
      enter_eq_ok_iff.2 (h.directories _ (enter_eq_ok_iff.1 hplace))
    cases step with
    | root => exact ih hwalk
    | current => exact ih hwalk
    | parent =>
      obtain ⟨_, hplace, hwalk⟩ := bind_eq_ok_iff.1 hwalk
      exact bind_eq_ok_iff.2 ⟨_, henter hplace, ih hwalk⟩
    | name n =>
      obtain ⟨_, hplace, hwalk⟩ := bind_eq_ok_iff.1 hwalk
      refine bind_eq_ok_iff.2 ⟨_, henter hplace, ?_⟩
      split at hwalk
      · rw [if_pos ‹_›]
        exact ih hwalk
      · cases hwalk

/-- A path leads where it led. -/
theorem Later.place? (h : Later t t') (hplace : t.place? path = some place) :
    t'.place? path = some place := by
  obtain ⟨husable, hwalk⟩ := place?_eq_some_iff.1 hplace
  exact place?_eq_some_iff.2 ⟨husable, h.workingDirectory ▸ h.walk hwalk⟩

/-- A later state with the same files. -/
structure SameFiles (t t' : FileTree) : Prop extends Later t t' where
  fileAt? : t'.fileAt? = t.fileAt?

theorem SameFiles.refl (t : FileTree) : SameFiles t t := ⟨.refl t, rfl⟩

theorem SameFiles.trans (h : SameFiles t t') (h' : SameFiles t' t'') : SameFiles t t'' :=
  ⟨h.toLater.trans h'.toLater, h'.fileAt?.trans h.fileAt?⟩

/-! ### Changes -/

/-- A tree in which something else stands at one place. -/
structure Changes (t : FileTree) (place : Place) (s : Option Standing) (t' : FileTree) : Prop where
  workingDirectory : t'.workingDirectory = t.workingDirectory
  at? : t'.at? = Function.update t.at? place s

/-- A change in a place that was no directory takes no directory away. -/
theorem Changes.later {s : Option Standing} (h : Changes t place s t')
    (hnot : t.at? place ≠ some .directory) : Later t t' where
  workingDirectory := h.workingDirectory
  directories := by
    intro other hother
    rw [isDirectoryAt_iff] at hother ⊢
    rw [h.at?, Function.update_of_ne (by rintro rfl; exact hnot hother)]
    exact hother

theorem changes_put? {n : Node} (h : t.put? place n = some t')
    (hnot : t.at? place ≠ some .directory) (hplain : ∀ rest, rest ≠ [] → n.at? rest = none) :
    Changes t place (some n.standing) t' := by
  obtain ⟨root, hroot, rfl⟩ := Option.map_eq_some_iff.1 h
  refine ⟨rfl, funext fun other => ?_⟩
  by_cases hother : place <+: other
  · -- At the place and below it stands the new node; below it nothing stood, nor does now.
    obtain ⟨rest, rfl⟩ := hother
    refine (Node.at?_put?_append hroot rest).trans ?_
    by_cases hrest : rest = []
    · subst hrest
      rw [List.append_nil, Function.update_self, Node.at?_nil]
    · rw [hplain rest hrest, Function.update_of_ne (by simpa using hrest)]
      exact (Node.at?_append_of_not_directory hnot hrest).symm
  · rw [Function.update_of_ne (by rintro rfl; exact hother List.prefix_rfl)]
    exact Node.at?_put?_of_not_prefix hroot hother

theorem changes_putFile (h : t.put? place (.file content) = some t')
    (hnot : t.at? place ≠ some .directory) : Changes t place (some (.file content)) t' := by
  refine changes_put? h hnot fun rest hrest => ?_
  obtain ⟨first, rest, rfl⟩ := List.exists_cons_of_ne_nil hrest
  rfl

theorem changes_remove (hplace : place ≠ []) (hnot : t.at? place ≠ some .directory) :
    Changes t place none { t with root := t.root.remove place } := by
  refine ⟨rfl, funext fun other => ?_⟩
  by_cases hother : place <+: other
  · obtain ⟨rest, rfl⟩ := hother
    refine (Node.at?_remove_append hplace rest).trans ?_
    by_cases hrest : rest = []
    · subst hrest
      rw [List.append_nil, Function.update_self]
    · rw [Function.update_of_ne (by simpa using hrest)]
      exact (Node.at?_append_of_not_directory hnot hrest).symm
  · rw [Function.update_of_ne (by rintro rfl; exact hother List.prefix_rfl)]
    exact Node.at?_remove_of_not_prefix hother

theorem writeFile?_eq_some (h : t.writeFile? path content = some t') :
    t.at? (t.placeOf path) ≠ some .directory ∧
      Changes t (t.placeOf path) (some (.file content)) t' := by
  obtain ⟨place, hplace, h⟩ := Option.bind_eq_some_iff.1 h
  cases placeOf_of_place? hplace
  split at h
  · cases h
  · rename_i hnot
    rw [Bool.or_eq_true, not_or, isDirectoryAt_iff] at hnot
    exact ⟨hnot.2, changes_putFile h hnot.2⟩

/-- A file that is moved stands at its new place, and nothing at the old one. -/
theorem moveFile?_eq_some {source : String} (h : t.moveFile? source path = some t')
    (hfile : t.at? (t.placeOf source) = some (.file content)) (hsource : t.placeOf source ≠ []) :
    t.place? path = some (t.placeOf path) ∧ Path.endsInDirectory path = false ∧
      t.at? (t.placeOf path) ≠ some .directory ∧
      ∃ removed, Changes t (t.placeOf source) none removed ∧
        Changes removed (t.placeOf path) (some (.file content)) t' := by
  obtain ⟨old, hold, h⟩ := Option.bind_eq_some_iff.1 h
  obtain ⟨new, hnew, h⟩ := Option.bind_eq_some_iff.1 h
  cases placeOf_of_place? hold
  cases placeOf_of_place? hnew
  split at h
  · cases h
  · rename_i hnot
    rw [Bool.or_eq_true, not_or, isDirectoryAt_iff, Bool.not_eq_true] at hnot
    obtain ⟨n, hn, h⟩ := Option.bind_eq_some_iff.1 h
    obtain rfl : n = .file content := by
      unfold at? Node.at? at hfile
      rw [hn] at hfile
      cases n with
      | file content' => cases hfile; rfl
      | directory entries => cases hfile
    have hremoved := changes_remove hsource (t := t) (by simp [hfile])
    refine ⟨hnew, hnot.1, hnot.2, _, hremoved, changes_putFile h ?_⟩
    rw [hremoved.at?, Function.update_apply]
    split
    · exact nofun
    · exact hnot.2

theorem makeDirectory_eq_ok (h : t.makeDirectory path = .ok t') :
    t.at? (t.placeOf path) = none ∧ Changes t (t.placeOf path) (some .directory) t' := by
  obtain ⟨place, hlocate, h⟩ := bind_eq_ok_iff.1 h
  have hplace : t.place? path = some place := by
    rw [place?, hlocate]
    rfl
  cases placeOf_of_place? hplace
  split at h
  · obtain ⟨_, _, ⟨⟩⟩ := bind_eq_ok_iff.1 h
  · split at h
    · cases h
    · rename_i hnone
      have hnone : t.at? (t.placeOf path) = none := by
        simpa [at?, Node.at?] using hnone
      split at h
      · cases h
        refine ⟨hnone, changes_put? ‹_› (by simp [hnone]) fun rest hrest => ?_⟩
        obtain ⟨first, rest, rfl⟩ := List.exists_cons_of_ne_nil hrest
        rfl
      · cases h

theorem sameFiles_makeDirectory (h : t.makeDirectory path = .ok t') : SameFiles t t' := by
  obtain ⟨hnone, hchanges⟩ := makeDirectory_eq_ok h
  refine ⟨hchanges.later (by simp [hnone]), ?_⟩
  rw [fileAt?_update hchanges.at?]
  refine Function.update_eq_self_iff.2 ?_
  rw [fileAt?, hnone]
  rfl

theorem sameFiles_makeChain (t : FileTree) (paths : List String) :
    SameFiles t (t.makeChain paths).1 := by
  induction paths generalizing t with
  | nil => exact .refl t
  | cons path above ih =>
    rw [makeChain]
    split
    · exact .refl t
    · split
      · exact sameFiles_makeDirectory ‹_›
      · exact .refl t
      · have habove := ih t
        split
        · rename_i heq
          exact heq ▸ habove
        · rename_i heq
          rw [heq] at habove
          split
          · exact habove.trans (sameFiles_makeDirectory ‹_›)
          · exact habove

/-- The making of room for a file changes no file. -/
theorem sameFiles_makeRoom (t : FileTree) (path : String) : SameFiles t (t.makeRoom path).1 := by
  unfold makeRoom
  split
  · exact .refl t
  · exact sameFiles_makeChain t _

end FileTree

end ConfigTables

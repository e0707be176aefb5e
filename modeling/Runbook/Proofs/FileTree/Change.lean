import Runbook.Proofs.FileTree.Growth
import Runbook.TextFile

/-!
# How file trees change

Directories are made and files are written, and nothing else ever happens to a file tree. What may
have changed is told by two things: the files that were written, with their content, and the places
at which directories may have been made. A file that the storage cuts short counts as written, with
what the storage has taken of it.

The module introduces:

* `FileTree.placeOf`: the place that a path denotes, names of two points collapsed;
* `FileTree.IsAmple`: the storage cuts no file short;
* `FileTree.Changed`: what has become of a tree, a relation that changes in a row compose;
* `FileTree.OnTheWay`: the places that a path passes through;
* `FileTree.leaves?`: what delivering a text leaves in the file, if the file is opened;
* `FileTree.MeetsNull`: when a file is not delivered because of the null character in its path.

The main results are `FileTree.deliverText_changed`, which says what delivering a text changes,
`FileTree.deliverText_cases`, which says what is left in the file, and `FileTree.Changed.locate`: a
path that has led somewhere leads there ever after.
-/

namespace Runbook.FileTree

/-! ## Places -/

/-- The place that names lead to from another one, where two points take back a name. -/
def placeFrom (start names : List String) : List String :=
  names.foldl (fun done name => if name = ".." then done.dropLast else done ++ [name]) start

/-- The place that a path denotes. -/
def placeOf (t : FileTree) (p : Path) : List String :=
  placeFrom (if p.isAbsolute then [] else t.current) p.parts

/-- A place on the way of a path: the path, or one that has fewer of its names, denotes it. -/
def OnTheWay (t : FileTree) (p : Path) (place : List String) : Prop :=
  ∃ names, names <+: p.parts ∧ place = t.placeOf ⟨p.root, names⟩

section Place

variable {t t' : FileTree} {p : Path}

theorem placeFrom_append (start first second : List String) :
    placeFrom start (first ++ second) = placeFrom (placeFrom start first) second :=
  List.foldl_append

/-- Names without two points are kept. -/
theorem placeFrom_of_notMem {names : List String} (h : ".." ∉ names) (start : List String) :
    placeFrom start names = start ++ names := by
  induction names generalizing start with
  | nil => exact (List.append_nil start).symm
  | cons name names ih =>
    obtain ⟨hname, hnames⟩ := not_or.mp (mt List.mem_cons.mpr h)
    have hne : name ≠ ".." := fun heq => hname heq.symm
    change placeFrom (if name = ".." then _ else _) names = _
    rw [if_neg hne, ih hnames, List.append_assoc, List.singleton_append]

/-- The place of a path is that of the resolved path, as long as the current directory has no name
of two points. -/
theorem parts_resolve (h : ".." ∉ t.current) (p : Path) : (t.resolve p).parts = t.placeOf p := by
  change placeFrom [] (t.currentPath.under p).parts = _
  unfold Path.under placeOf
  split
  case isTrue => rfl
  case isFalse =>
    change placeFrom [] (t.current ++ p.parts) = placeFrom t.current p.parts
    rw [placeFrom_append, placeFrom_of_notMem h, List.nil_append]

/-- Of a tree, the place of a path depends on the current directory alone. -/
theorem placeOf_congr (h : t'.current = t.current) (p : Path) : t'.placeOf p = t.placeOf p := by
  rw [placeOf, placeOf, h]

theorem onTheWay_congr (h : t'.current = t.current) {place : List String} :
    t'.OnTheWay p place ↔ t.OnTheWay p place := by
  simp only [OnTheWay, placeOf_congr h]

/-- A path denotes a place on its way. -/
theorem onTheWay_placeOf (t : FileTree) (p : Path) : t.OnTheWay p (t.placeOf p) :=
  ⟨p.parts, List.prefix_rfl, rfl⟩

/-- What is on the way to the parent is on the way. -/
theorem OnTheWay.of_parent {place : List String} (h : t.OnTheWay p.parent place) :
    t.OnTheWay p place := by
  obtain ⟨names, hnames, rfl⟩ := h
  exact ⟨names, hnames.trans (List.dropLast_prefix _), rfl⟩

end Place

/-! ## What stands at places -/

/-- The content of the file at a place, if a file stands there. -/
def content? (t : FileTree) (place : List String) : Option (List UInt8) :=
  match t.get? place with
  | some (.file content) => some content
  | _ => none

section Get

variable {t : FileTree} {place : List String}

private theorem lookup_node (other found : List String) (n : Node)
    (nodes : List (List String × Node)) :
    ((found, n) :: nodes).lookup other = if other = found then some n else nodes.lookup other := by
  rw [List.lookup_cons]
  by_cases h : other = found
  · rw [if_pos h, beq_iff_eq.mpr h]
  · rw [if_neg h, beq_eq_false_iff_ne.mpr h]

private theorem lookup_putNode (place : List String) (node : Node) (other : List String)
    (nodes : List (List String × Node)) :
    (put.putNode place node nodes).lookup other =
      if other = place then some node else nodes.lookup other := by
  induction nodes with
  | nil => exact lookup_node other place node []
  | cons entry nodes ih =>
    obtain ⟨found, n⟩ := entry
    rw [put.putNode]
    split
    case isTrue hfound =>
      rw [hfound, lookup_node, lookup_node]
      split <;> rfl
    case isFalse hfound =>
      rw [lookup_node, lookup_node, ih]
      by_cases h : other = found
      · rw [if_pos h, if_pos h, if_neg fun heq => hfound (h.symm.trans heq)]
      · rw [if_neg h, if_neg h]

/-- What a tree holds once something has been put at a place below the root directory. -/
theorem get?_put (hplace : place ≠ []) (node : Node) (other : List String) :
    (t.put place node).get? other = if other = place then some node else t.get? other := by
  unfold get?
  by_cases hroot : other = []
  · rw [if_pos hroot, if_pos hroot, if_neg fun h => hplace (h.symm.trans hroot)]
  · rw [if_neg hroot, if_neg hroot]
    exact lookup_putNode place node other t.nodes

theorem content?_eq_some_iff {content : List UInt8} :
    t.content? place = some content ↔ t.get? place = some (.file content) := by
  unfold content?
  split
  case h_1 found hfound => simp [hfound]
  case h_2 hother => exact iff_of_false nofun fun h => hother content h

end Get

/-! ## Finding places -/

/-- The place that a path was found to lead to. -/
def Target.place : Target → List String
  | .directory place => place
  | .entry place => place

section Locate

variable {t : FileTree} {p : Path}

/-- Going through names leads where the names say. -/
theorem place_of_walk {start names place : List String} (h : t.walk start names = .ok place) :
    place = placeFrom start names := by
  -- The cases in which the walk fails are closed together at the end.
  fun_induction walk t start names with
  | case1 start => exact (Except.ok.inj h).symm
  | case2 start names ih => exact ih h
  | case6 start name names hname _ _ ih =>
    change place = placeFrom (if name = ".." then _ else _) names
    rw [if_neg hname]
    exact ih h
  | _ => cases h

/-- A path leads to the place that it denotes. -/
theorem place_of_locate {target : Target} (h : t.locate p = .ok target) :
    target.place = t.placeOf p := by
  unfold locate at h
  simp only at h
  split at h
  case isTrue => cases h
  case isFalse =>
    split at h
    case h_1 => cases h
    case h_2 place hwalk =>
      obtain rfl := place_of_walk hwalk
      split at h
      case h_1 hlast =>
        obtain rfl := (Except.ok.inj h).symm
        rw [List.getLast?_eq_none_iff.mp hlast]
        simp only [Target.place, placeOf, List.getLast?_eq_none_iff.mp hlast, List.dropLast_nil]
      case h_2 name hlast =>
        obtain ⟨names, hnames⟩ := List.getLast?_eq_some_iff.mp hlast
        -- The last name is taken on its own, after the names before it.
        have hplace : t.placeOf p =
            placeFrom (placeFrom (if p.isAbsolute then [] else t.current) p.parts.dropLast)
              [name] := by
          rw [← placeFrom_append, hnames, List.dropLast_concat, placeOf, hnames]
        rw [hplace]
        change _ = if name = ".." then _ else _
        split at h
        case isTrue hname =>
          obtain rfl := (Except.ok.inj h).symm
          rw [if_pos hname]
          rfl
        case isFalse hname =>
          split at h
          · cases h
          · obtain rfl := (Except.ok.inj h).symm
            rw [if_neg hname]
            rfl

/-- A name in a directory is not the root directory. -/
theorem ne_nil_of_locate {place : List String} (h : t.locate p = .ok (.entry place)) :
    place ≠ [] := by
  unfold locate at h
  simp only at h
  repeat' split at h
  all_goals cases h
  exact List.append_ne_nil_of_right_ne_nil _ (List.cons_ne_nil _ _)

end Locate

/-! ## The storage -/

/-- The storage cuts no file short. -/
def IsAmple (t : FileTree) : Prop :=
  ∀ cut, some cut ∉ t.storage

/-- What the storage takes of the next file that is written. -/
def taken (t : FileTree) (content : List UInt8) : List UInt8 :=
  match t.cut? with
  | none => content
  | some cut => content.take cut.kept

section Storage

variable {t t' : FileTree} {content : List UInt8} {cut : Cut}

theorem taken_of_none (h : t.cut? = none) : t.taken content = content := by
  rw [taken, h]

theorem taken_of_some (h : t.cut? = some cut) : t.taken content = content.take cut.kept := by
  rw [taken, h]

/-- A cut is one of those that the storage makes. -/
theorem mem_storage_of_cut? (h : t.cut? = some cut) : some cut ∈ t.storage := by
  rw [cut?, Option.join_eq_some_iff] at h
  exact List.mem_of_mem_head? h

theorem IsAmple.cut?_eq_none (h : t.IsAmple) : t.cut? = none := by
  cases hcut : t.cut? with
  | none => rfl
  | some cut => exact absurd (mem_storage_of_cut? hcut) (h cut)

/-- Ample storage stays ample while files are written. -/
theorem IsAmple.of_suffix (h : t.IsAmple) (hsuffix : t'.storage <:+ t.storage) : t'.IsAmple :=
  fun cut hmem => h cut (hsuffix.subset hmem)

end Storage

/-! ## Changes -/

/-- A tree has become another one: the files that are `written` stand at their places with their
content, directories were made at places that are `made` where there was nothing, and nothing else
has changed. -/
structure Changed (t : FileTree) (written : List String → Option (List UInt8))
    (made : List String → Prop) (t' : FileTree) : Prop where
  /-- The current directory is the same. -/
  current : t'.current = t.current
  /-- The storage does to later files what it was to do to them. -/
  storage : t'.storage <:+ t.storage
  /-- The files that are written stand at their places. -/
  file : ∀ {place content}, written place = some content → t'.get? place = some (.file content)
  /-- Directories remain. -/
  directory : ∀ {place}, t.get? place = some .directory → t'.get? place = some .directory
  /-- At every other place stands what stood there, unless a directory was made where there was
  nothing. -/
  other : ∀ {place}, written place = none → t'.get? place = t.get? place ∨
    t.get? place = none ∧ t'.get? place = some .directory ∧ made place

/-- No file is written. -/
def noFile : List String → Option (List UInt8) := fun _ => none

/-- One file is written. -/
def oneFile (place : List String) (content : List UInt8) : List String → Option (List UInt8) :=
  fun other => if other = place then some content else none

namespace Changed

variable {t t' t'' : FileTree} {written written' : List String → Option (List UInt8)}
  {made made' : List String → Prop} {p : Path} {place : List String}

theorem refl (t : FileTree) (made : List String → Prop) : t.Changed noFile made t :=
  ⟨rfl, List.suffix_rfl, nofun, id, fun _ => .inl rfl⟩

/-- What is written later counts. -/
theorem trans (h : t.Changed written made t') (h' : t'.Changed written' made' t'') :
    t.Changed (fun place => (written' place).or (written place))
      (fun place => made place ∨ made' place) t'' := by
  refine ⟨h'.current.trans h.current, h'.storage.trans h.storage, ?_,
    fun hplace => h'.directory (h.directory hplace), ?_⟩
  · intro place content hwritten
    cases hlater : written' place with
    | some content' =>
      rw [hlater] at hwritten
      obtain rfl := Option.some.inj hwritten
      exact h'.file hlater
    | none =>
      rw [hlater] at hwritten
      have hfile : t'.get? place = some (.file content) := h.file hwritten
      -- The later change leaves the file alone, since a directory is made only where nothing is.
      rcases h'.other hlater with hsame | ⟨hnone, -⟩
      · exact hsame.trans hfile
      · cases hnone.symm.trans hfile
  · intro place hwritten
    obtain ⟨hlater, hearlier⟩ := Option.or_eq_none_iff.mp hwritten
    rcases h.other hearlier with hsame | ⟨hnone, hdirectory, hmade⟩
    · rcases h'.other hlater with hsame' | ⟨hnone, hdirectory, hmade⟩
      · exact .inl (hsame'.trans hsame)
      · exact .inr ⟨hsame.symm.trans hnone, hdirectory, .inr hmade⟩
    · exact .inr ⟨hnone, h'.directory hdirectory, .inl hmade⟩

/-- What is written after directories were made is all that is written. -/
theorem making_trans (h : t.Changed noFile made t') (h' : t'.Changed written' made' t'') :
    t.Changed written' (fun place => made place ∨ made' place) t'' := by
  have hall : (fun place => (written' place).or (noFile place)) = written' :=
    funext fun place => Option.or_none
  exact hall ▸ h.trans h'

theorem mono (h : t.Changed written made t') (hmade : ∀ place, made place → made' place) :
    t.Changed written made' t' := by
  refine ⟨h.current, h.storage, h.file, h.directory, fun hplace => ?_⟩
  rcases h.other hplace with hsame | ⟨hnone, hdirectory, hplace⟩
  · exact .inl hsame
  · exact .inr ⟨hnone, hdirectory, hmade _ hplace⟩

/-- What a file holds changes by writing it and in no other way. -/
theorem content?_eq (h : t.Changed written made t') (place : List String) :
    t'.content? place = (written place).or (t.content? place) := by
  cases hwritten : written place with
  | some content => exact content?_eq_some_iff.mpr (h.file hwritten)
  | none =>
    rcases h.other hwritten with hsame | ⟨hnone, hdirectory, -⟩
    · simp only [content?, hsame, Option.none_or]
    · simp only [content?, hnone, hdirectory, Option.none_or]

/-- A new directory is one that was made. -/
theorem made_of_new (h : t.Changed written made t') (hnone : t.get? place = none)
    (hdirectory : t'.get? place = some .directory) : made place := by
  have hwritten : written place = none := by
    cases hwritten : written place with
    | none => rfl
    | some content => cases hdirectory.symm.trans (h.file hwritten)
  rcases h.other hwritten with hsame | ⟨-, -, hmade⟩
  · cases (hdirectory.symm.trans hsame).trans hnone
  · exact hmade

/-- A tree that has changed has grown. -/
theorem grows (h : t.Changed written made t') : t.Grows t' := by
  refine ⟨h.current, h.directory, fun {place content} hfile => ?_⟩
  cases hwritten : written place with
  | some content' => exact ⟨content', h.file hwritten⟩
  | none =>
    rcases h.other hwritten with hsame | ⟨hnone, -⟩
    · exact ⟨content, hsame.trans hfile⟩
    · cases hnone.symm.trans hfile

/-- A path that has led somewhere leads there ever after. -/
theorem locate (h : t.Changed written made t') {target : Target}
    (hlocate : t.locate p = .ok target) : t'.locate p = .ok target :=
  (h.grows.locate (hlocate ▸ nofun)).trans hlocate

end Changed

/-! ## Making directories and writing files -/

section Make

variable {t t' : FileTree} {p : Path}

/-- The files once the one that was opened at a place is written, as far as the storage takes it. -/
def filled (t : FileTree) (place : List String) (content : List UInt8) : FileTree :=
  { t with storage := t.storage.tail }.put place (.file (t.taken content))

/-- A file is written where no directory stands. -/
theorem filled_changed {place : List String} (hplace : place ≠ []) (content : List UInt8)
    (hfree : t.get? place ≠ some .directory) (made : List String → Prop) :
    t.Changed (oneFile place (t.taken content)) made (t.filled place content) := by
  have hget (other : List String) : (t.filled place content).get? other =
      if other = place then some (.file (t.taken content)) else t.get? other :=
    get?_put hplace _ other
  refine ⟨rfl, List.tail_suffix _, ?_, ?_, ?_⟩
  · intro other found hfound
    rw [hget]
    unfold oneFile at hfound
    split at hfound
    case isTrue h => rw [if_pos h, Option.some.inj hfound]
    case isFalse => cases hfound
  · intro other hother
    have hne : other ≠ place := fun h => hfree (h ▸ hother)
    rw [hget, if_neg hne, hother]
  · intro other hother
    unfold oneFile at hother
    split at hother
    case isTrue => cases hother
    case isFalse hne => exact .inl ((hget other).trans (if_neg hne))

/-- A directory is made where there was nothing. -/
theorem makeOne_changed (h : t.makeOne p = .ok t') :
    t.Changed noFile (t.OnTheWay p) t' := by
  unfold makeOne at h
  split at h
  case h_1 => cases h
  case h_2 => cases h
  case h_3 place hlocate =>
    split at h
    case h_1 => cases h
    case h_2 hnone =>
      obtain rfl := (Except.ok.inj h).symm
      have hne : place ≠ [] := ne_nil_of_locate hlocate
      have hway : t.OnTheWay p place := by
        have hplace : place = t.placeOf p := place_of_locate hlocate
        exact hplace ▸ onTheWay_placeOf t p
      refine ⟨rfl, List.suffix_rfl, nofun, fun hother => ?_, fun {other} _ => ?_⟩
      · rw [get?_put hne]
        split
        · rfl
        · exact hother
      · rw [get?_put hne]
        by_cases heq : other = place
        · rw [if_pos heq, heq]
          exact .inr ⟨hnone, rfl, hway⟩
        · rw [if_neg heq]
          exact .inl rfl

theorem makeIfAbsent_changed (h : t.makeIfAbsent p = .ok t') :
    t.Changed noFile (t.OnTheWay p) t' := by
  unfold makeIfAbsent at h
  split at h
  case h_1 found hmade =>
    obtain rfl := Except.ok.inj h
    exact makeOne_changed hmade
  case h_2 => cases h
  case h_3 =>
    split at h
    · obtain rfl := Except.ok.inj h
      exact .refl t _
    · cases h

/-- Directories are made on the way of the path, also when that fails in the end. -/
theorem makeAll_changed (depth : Nat) (t : FileTree) (p : Path) :
    t.Changed noFile (t.OnTheWay p) (makeAll depth t p).1 := by
  -- The path loses a name with each level of the recursion, and so it varies with the depth.
  induction depth generalizing t p with
  | zero =>
    unfold makeAll
    split
    case h_1 found _ hmade => exact makeIfAbsent_changed hmade
    case h_2 heq => cases heq
    case h_3 => exact .refl t _
  | succ depth ih =>
    unfold makeAll
    split
    case h_1 found _ hmade => exact makeIfAbsent_changed hmade
    case h_3 => exact .refl t _
    case h_2 heq =>
      obtain rfl := Nat.succ.inj heq
      have hparents : t.Changed noFile (t.OnTheWay p) (makeAll depth t p.parent).1 :=
        (ih t p.parent).mono fun _ => OnTheWay.of_parent
      split
      case h_1 found _ hfailed =>
        rw [hfailed] at hparents
        exact hparents
      case h_2 parents hparent =>
        rw [hparent] at hparents
        -- The directory is tried once more in the tree that has its parents.
        split
        case h_1 found hmade =>
          refine (hparents.trans (makeIfAbsent_changed hmade)).mono fun place => ?_
          exact Or.rec id (onTheWay_congr hparents.current).mp
        case h_2 => exact hparents

theorem makeDirectories_changed (t : FileTree) (p : Path) :
    t.Changed noFile (t.OnTheWay p) (t.makeDirectories p).1 := by
  have hall := makeAll_changed p.parts.length t p
  unfold makeDirectories
  split
  · exact .refl t _
  · split <;> simp_all

/-- A directory that is refused is told by its path. -/
theorem makeDirectories_ne_pathless (errno : Errno) :
    (t.makeDirectories p).2 ≠ some (.refused errno none) := by
  unfold makeDirectories
  repeat' split
  all_goals exact nofun

theorem makeDirectories_null_iff :
    (t.makeDirectories p).2 = some .nullCharacter ↔ p.holdsNull = true := by
  unfold makeDirectories
  split
  case isTrue h => exact iff_of_true rfl h
  case isFalse h =>
    refine iff_of_false ?_ h
    split <;> simp

/-- A file is opened at the place of its path, where no directory stands. -/
theorem openFile_eq_ok {place : List String} (h : t.openFile p = .ok place) :
    p.holdsNull = false ∧ place = t.placeOf p ∧ t.locate p = .ok (.entry place) ∧
      t.get? place ≠ some .directory := by
  unfold openFile at h
  split at h
  case isTrue => cases h
  case isFalse hnull =>
    split at h
    case h_1 => cases h
    case h_2 => cases h
    case h_3 found hlocate =>
      split at h
      case h_1 => cases h
      case h_2 hfree =>
        obtain rfl := Except.ok.inj h
        exact ⟨Bool.eq_false_iff.mpr hnull, place_of_locate hlocate, hlocate, fun h => hfree h⟩

theorem openFile_null_iff : t.openFile p = .error .nullCharacter ↔ p.holdsNull = true := by
  unfold openFile
  split
  case isTrue h => exact iff_of_true rfl h
  case isFalse h =>
    refine iff_of_false ?_ h
    repeat' split
    all_goals simp

/-- What a file tree becomes when a file in it is written. -/
theorem openFile_changed {place : List String} (h : t.openFile p = .ok place)
    (content : List UInt8) (made : List String → Prop) :
    t.Changed (oneFile place (t.taken content)) made (t.filled place content) := by
  obtain ⟨-, -, hlocate, hfree⟩ := openFile_eq_ok h
  exact filled_changed (ne_nil_of_locate hlocate) content hfree made

theorem write_of_refused {e : Error} (h : t.openFile p = .error e) (content : List UInt8) :
    t.write p content = .error (e, t) := by
  rw [write, h]

theorem write_of_cut {place : List String} {cut : Cut} (h : t.openFile p = .ok place)
    (hcut : t.cut? = some cut) (content : List UInt8) :
    t.write p content = .error (.refused cut.reason none, t.filled place content) := by
  rw [write, h]
  simp only [fill, hcut, filled, taken_of_some hcut]

theorem write_of_whole {place : List String} (h : t.openFile p = .ok place)
    (hcut : t.cut? = none) (content : List UInt8) :
    t.write p content = .ok (t.filled place content) := by
  rw [write, h]
  simp only [fill, hcut, filled, taken_of_none hcut]

/-- The file that a path leads to is read. -/
theorem read_of_locate {place : List String} {content : List UInt8} (hnull : p.holdsNull = false)
    (hlocate : t.locate p = .ok (.entry place)) (hfile : t.get? place = some (.file content)) :
    t.read p = .ok content := by
  simp only [read, hnull, lookup, hlocate, hfile, Bool.false_eq_true, if_false]

end Make

/-! ## Delivering a text -/

section Deliver

variable {t t' between : FileTree} {p : Path} {s : String} {place : List String}

/-- What delivering a text leaves in the file that a path leads to, if it comes to opening it. -/
def leaves? (t : FileTree) (p : Path) (s : String) : Option (List UInt8) :=
  match t.makeDirectories p.parent with
  | (_, some _) => none
  | (between, none) =>
    match between.openFile p with
    | .error _ => none
    | .ok _ => some (between.taken (Text.Utf8.encode s))

theorem deliverText_of_barred {e : Error} (h : t.makeDirectories p.parent = (between, some e)) :
    t.deliverText p s = (between, some e) ∧ t.leaves? p s = none := by
  simp only [deliverText, leaves?, h, and_self]

theorem deliverText_of_refused {e : Error} (hmade : t.makeDirectories p.parent = (between, none))
    (hopen : between.openFile p = .error e) :
    t.deliverText p s = (between, some e) ∧ t.leaves? p s = none := by
  simp only [deliverText, writeText, leaves?, hmade, hopen, write_of_refused hopen, and_self]

/-- A file that is opened is written as far as the storage takes it. -/
theorem deliverText_of_opened (hmade : t.makeDirectories p.parent = (between, none))
    (hopen : between.openFile p = .ok place) :
    t.deliverText p s = (between.filled place (Text.Utf8.encode s),
        between.cut?.map fun cut => .refused cut.reason none) ∧
      t.leaves? p s = some (between.taken (Text.Utf8.encode s)) := by
  cases hcut : between.cut? with
  | none =>
    simp only [deliverText, writeText, leaves?, hmade, hopen, write_of_whole hopen hcut,
      Option.map_none, and_self]
  | some cut =>
    simp only [deliverText, writeText, leaves?, hmade, hopen, write_of_cut hopen hcut,
      Option.map_some, and_self]

/-- A text is refused before its file is opened, or it is delivered to its end, or the storage cuts
it short. -/
theorem deliverText_cases (t : FileTree) (p : Path) (s : String) :
    (t.leaves? p s = none ∧ ∃ e, (t.deliverText p s).2 = some e) ∨
    (t.leaves? p s = some (Text.Utf8.encode s) ∧ (t.deliverText p s).2 = none) ∨
    ∃ cut, some cut ∈ t.storage ∧
      t.leaves? p s = some ((Text.Utf8.encode s).take cut.kept) ∧
      (t.deliverText p s).2 = some (.refused cut.reason none) := by
  have hmade := makeDirectories_changed t p.parent
  rcases hbetween : t.makeDirectories p.parent with ⟨between, _ | e⟩
  · rcases hopen : between.openFile p with e | place
    · obtain ⟨hdelivered, hleaves⟩ := deliverText_of_refused (s := s) hbetween hopen
      exact .inl ⟨hleaves, e, by rw [hdelivered]⟩
    · obtain ⟨hdelivered, hleaves⟩ := deliverText_of_opened (s := s) hbetween hopen
      rw [hdelivered, hleaves]
      cases hcut : between.cut? with
      | none => exact .inr (.inl ⟨by rw [taken_of_none hcut], rfl⟩)
      | some cut =>
        refine .inr (.inr ⟨cut, ?_, by rw [taken_of_some hcut], rfl⟩)
        -- No file has been written yet, and the storage still has this cut to make.
        rw [hbetween] at hmade
        exact hmade.storage.subset (mem_storage_of_cut? hcut)
  · obtain ⟨hdelivered, hleaves⟩ := deliverText_of_barred (s := s) hbetween
    exact .inl ⟨hleaves, e, by rw [hdelivered]⟩

/-- Delivering a text writes what it leaves in its file, if it opens it, and makes directories. -/
theorem deliverText_changed (t : FileTree) (p : Path) (s : String) :
    t.Changed ((t.leaves? p s).elim noFile (oneFile (t.placeOf p))) (t.OnTheWay p.parent)
      (t.deliverText p s).1 := by
  have hmade := makeDirectories_changed t p.parent
  rcases hbetween : t.makeDirectories p.parent with ⟨between, _ | e⟩ <;> rw [hbetween] at hmade
  · rcases hopen : between.openFile p with e | place
    · obtain ⟨hdelivered, hleaves⟩ := deliverText_of_refused (s := s) hbetween hopen
      rw [hdelivered, hleaves]
      exact hmade
    · obtain ⟨hdelivered, hleaves⟩ := deliverText_of_opened (s := s) hbetween hopen
      obtain rfl : place = t.placeOf p :=
        (openFile_eq_ok hopen).2.1.trans (placeOf_congr hmade.current p)
      rw [hdelivered, hleaves]
      have hfilled := openFile_changed hopen (Text.Utf8.encode s) fun _ => False
      exact (hmade.making_trans hfilled).mono fun place => Or.rec id False.elim
  · obtain ⟨hdelivered, hleaves⟩ := deliverText_of_barred (s := s) hbetween
    rw [hdelivered, hleaves]
    exact hmade

/-- The path of a file that was opened leads to it. -/
theorem locate_of_leaves? {octets : List UInt8} (h : t.leaves? p s = some octets) :
    p.holdsNull = false ∧ (t.deliverText p s).1.locate p = .ok (.entry (t.placeOf p)) := by
  have hmade := makeDirectories_changed t p.parent
  rcases hbetween : t.makeDirectories p.parent with ⟨between, _ | e⟩ <;> rw [hbetween] at hmade
  · rcases hopen : between.openFile p with e | place
    · cases (deliverText_of_refused hbetween hopen).2.symm.trans h
    · obtain ⟨hnull, hplace, hlocate, -⟩ := openFile_eq_ok hopen
      rw [(deliverText_of_opened hbetween hopen).1, ← placeOf_congr hmade.current, ← hplace]
      exact ⟨hnull, (openFile_changed hopen _ fun _ => False).locate hlocate⟩
  · cases (deliverText_of_barred hbetween).2.symm.trans h

/-- A text that is delivered stands at its place, and its path leads there. -/
theorem deliverText_written (h : t.deliverText p s = (t', none)) :
    p.holdsNull = false ∧ t'.locate p = .ok (.entry (t.placeOf p)) ∧
      t.Changed (oneFile (t.placeOf p) (Text.Utf8.encode s)) (t.OnTheWay p.parent) t' := by
  have hchanged := deliverText_changed t p s
  rcases deliverText_cases t p s with ⟨-, e, herror⟩ | ⟨hleaves, -⟩ | ⟨cut, -, -, herror⟩
  · cases (congrArg Prod.snd h).symm.trans herror
  · obtain ⟨hnull, hlocate⟩ := locate_of_leaves? hleaves
    rw [h] at hlocate hchanged
    rw [hleaves] at hchanged
    exact ⟨hnull, hlocate, hchanged⟩
  · cases (congrArg Prod.snd h).symm.trans herror

/-- The null character in a path comes in the way: in the path of the directory, or else in the name
of the file once the directory is there. -/
def MeetsNull (t : FileTree) (p : Path) : Prop :=
  p.parent.holdsNull = true ∨ p.holdsNull = true ∧ (t.makeDirectories p.parent).2 = none

/-- The null character comes in the way only if the path holds it. -/
theorem MeetsNull.holdsNull (h : t.MeetsNull p) : p.holdsNull = true := by
  rcases h with hparent | ⟨hnull, -⟩
  · obtain ⟨part, hpart, hchar⟩ := List.any_eq_true.mp hparent
    exact List.any_eq_true.mpr ⟨part, List.dropLast_subset _ hpart, hchar⟩
  · exact hnull

theorem deliverText_null_iff :
    (t.deliverText p s).2 = some .nullCharacter ↔ t.MeetsNull p := by
  have hparent : (t.makeDirectories p.parent).2 = some .nullCharacter ↔ p.parent.holdsNull = true :=
    makeDirectories_null_iff
  unfold MeetsNull
  rcases hmade : t.makeDirectories p.parent with ⟨between, _ | e⟩ <;> rw [hmade] at hparent
  · have hfree : ¬p.parent.holdsNull = true := fun h => by cases hparent.mpr h
    rw [or_iff_right hfree, and_iff_left rfl, ← openFile_null_iff (t := between)]
    rcases hopen : between.openFile p with e | place
    · rw [(deliverText_of_refused hmade hopen).1]
      simp
    · rw [(deliverText_of_opened hmade hopen).1]
      cases between.cut? <;> simp
  · rw [(deliverText_of_barred hmade).1]
    simp only [reduceCtorEq, and_false, or_false]
    exact hparent

end Deliver

end Runbook.FileTree

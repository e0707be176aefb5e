import Runbook.Proofs.CommandLine.Pair
import Runbook.Proofs.FileTree.Change
import Runbook.Proofs.Text.Utf8

/-!
# How expanding a file ends

The command that expands a file ends with exit code 0 when it has written the expanded text, with 1
when a file cannot be read or written, and with 2 when there is no input or a pair gives no
variable. Three things escape it: a path of the input that is too long, octets of the input that
encode no text, and the null character in the path of the output. Unless the exit code is 0 no file
has changed, except for an output that the storage has cut short once it was opened.

The module introduces:

* `FileTree.HoldsText`: the text that a file holds;
* `CommandLine.Expand.Exits` and `CommandLine.Expand.Escapes`: the ways in which the command ends
  with an exit code, and what escapes it;
* `CommandLine.Expand.Writes`: what the command has done when the exit code is 0;
* `CommandLine.Expand.CutsShort`: what it has done when the storage cuts the output short.

The main result is `CommandLine.Expand.perform_ends`.
-/

namespace Runbook

/-! ## The text of a file -/

namespace FileTree

/-- A file holds a text: it encodes one of which every line end becomes a line feed. -/
def HoldsText (t : FileTree) (p : Path) (text : String) : Prop :=
  ∃ s, t.read p = .ok (Text.Utf8.encode s) ∧ text = String.ofList (Text.unifyLineEnds s.toList)

variable {t : FileTree} {p : Path} {text : String}

theorem readText_eq_ok_iff : t.readText p = .ok text ↔ t.HoldsText p text := by
  unfold readText
  constructor
  · intro h
    split at h
    case h_1 => cases h
    case h_2 content hread =>
      split at h
      case h_1 => cases h
      case h_2 s hdecode =>
        obtain rfl := Except.ok.inj h
        exact ⟨s, Text.Utf8.decode_eq_ok_iff.mp hdecode ▸ hread, rfl⟩
  · rintro ⟨s, hread, rfl⟩
    rw [hread]
    dsimp only
    rw [Text.Utf8.decode_eq_ok_iff.mpr rfl]

/-- What is read stands there under a path without the null character. -/
theorem read_eq_ok_iff {content : List UInt8} :
    t.read p = .ok content ↔ p.holdsNull = false ∧ t.lookup p = .ok (.file content) := by
  unfold read
  cases p.holdsNull with
  | true => exact iff_of_false nofun fun h => Bool.noConfusion h.1
  | false =>
    cases t.lookup p with
    | error errno => simp
    | ok node => cases node <;> simp

theorem present_eq_false_iff :
    t.present p = .ok false ↔ p.holdsNull = true ∨
      ∃ errno, t.lookup p = .error errno ∧ errno ≠ .nameTooLong := by
  unfold present
  cases p.holdsNull with
  | true => simp
  | false =>
    cases t.lookup p with
    | ok node => simp
    | error errno => cases errno <;> simp

theorem present_of_read {content : List UInt8} (h : t.read p = .ok content) :
    t.present p = .ok true := by
  obtain ⟨hnull, hlookup⟩ := read_eq_ok_iff.mp h
  rw [present, hnull, hlookup]
  rfl

end FileTree

namespace CommandLine.Expand

/-! ## The ways to end -/

section Ends

variable (c : Expand) (tree : FileTree)

/-- The path of the input. -/
def sourcePath : Path := Path.ofText c.source

/-- The path of the output. -/
def targetPath : Path := Path.ofText c.target

/-- The command comes to the writing of a text: the input holds a text, and it is resolved under the
variables that the pairs give. -/
inductive Reaches : String → Prop
  | mk {text : String} {table : Expression.Table} :
      tree.HoldsText c.sourcePath text → readPairs c.pairs = .ok table →
      Reaches (Expression.resolve table c.depth text)

/-- The ways in which the command ends with an exit code. -/
inductive Exits : Nat → Prop
  | written {out : String} :
      Reaches c tree out → (tree.deliverText c.targetPath out).2 = none → Exits 0
  /-- There is no input. -/
  | absent :
      (c.sourcePath.holdsNull = true ∨
        ∃ errno, tree.lookup c.sourcePath = .error errno ∧ errno ≠ .nameTooLong) → Exits 2
  /-- The input is a directory. -/
  | unreadable :
      c.sourcePath.holdsNull = false → tree.lookup c.sourcePath = .ok .directory → Exits 1
  /-- The input holds a text, but one of the pairs gives no variable. -/
  | faultyPair {text pair : String} :
      tree.HoldsText c.sourcePath text → pair ∈ c.pairs →
      (∀ name value, IsName name → pair ≠ pairOf (name, value)) → Exits 2
  /-- The system refuses the output, or the storage cuts it short. -/
  | unwritable {out : String} {errno : FileTree.Errno} {path : Option Path} :
      Reaches c tree out →
      (tree.deliverText c.targetPath out).2 = some (.refused errno path) → Exits 1

/-- What escapes the command. -/
inductive Escapes : Trouble → Prop
  /-- The path of the input is too long. -/
  | nameTooLong :
      c.sourcePath.holdsNull = false → tree.lookup c.sourcePath = .error .nameTooLong →
      Escapes (.file (.refused .nameTooLong (some c.sourcePath)))
  /-- The input encodes no text. -/
  | noText {content : List UInt8} {fault : Text.Utf8.Fault} :
      tree.read c.sourcePath = .ok content → (∀ s, content ≠ Text.Utf8.encode s) →
      Text.Utf8.decode content = .error fault → Escapes (.encoding fault)
  /-- The null character is in the way of the output. -/
  | nullCharacter {out : String} :
      Reaches c tree out → tree.MeetsNull c.targetPath → Escapes (.file .nullCharacter)

/-- What the command has done when the exit code is 0: the output holds the text of the input,
resolved under the variables that the pairs give, and no other file has changed. -/
inductive Writes (after : FileTree) : Prop
  | mk {text : String} {table : Expression.Table} :
      tree.HoldsText c.sourcePath text → IsTableOf c.pairs table →
      after.read c.targetPath = .ok (Text.Utf8.encode (Expression.resolve table c.depth text)) →
      (∀ place, place ≠ tree.placeOf c.targetPath →
        after.content? place = tree.content? place) → Writes after

/-- What the command has done when the storage cuts the output short: the output holds what the
storage has taken of the resolved text, and no other file has changed. -/
inductive CutsShort (after : FileTree) : Prop
  | mk {out : String} {cut : Cut} :
      Reaches c tree out → some cut ∈ tree.storage →
      (tree.deliverText c.targetPath out).2 = some (.refused cut.reason none) →
      (∀ place, after.content? place =
        if place = tree.placeOf c.targetPath then some ((Text.Utf8.encode out).take cut.kept)
        else tree.content? place) → CutsShort after

end Ends

variable {c : Expand} {tree : FileTree} {out text : String} {code : Nat} {trouble : Trouble}

/-! ## Writing -/

theorem write_tree (tree : FileTree) (target : Path) (out : String) :
    (write tree target out).tree = (tree.deliverText target out).1 := by
  unfold write
  split <;> simp_all [escape, complain]

theorem write_ending (tree : FileTree) (target : Path) (out : String) :
    (write tree target out).ending =
      match (tree.deliverText target out).2 with
      | none => .ok 0
      | some .nullCharacter => .error (.file .nullCharacter)
      | some (.refused _ _) => .ok 1 := by
  unfold write
  rcases tree.deliverText target out with ⟨after, _ | e⟩
  · rfl
  · cases e <;> rfl

theorem perform_of_text (h : tree.HoldsText c.sourcePath text) :
    c.perform tree = c.replace tree text := by
  obtain ⟨s, hread, -⟩ := id h
  unfold perform
  dsimp only
  rw [show Path.ofText c.source = c.sourcePath from rfl, FileTree.present_of_read hread,
    FileTree.readText_eq_ok_iff.mpr h]

theorem Reaches.perform_eq (h : Reaches c tree out) :
    c.perform tree = write tree c.targetPath out := by
  obtain ⟨htext, hpairs⟩ := h
  rw [perform_of_text htext, replace, hpairs]
  rfl

/-! ## How the command ends -/

theorem Exits.ending (h : Exits c tree code) : (c.perform tree).ending = .ok code := by
  cases h with
  | written hreaches hnone => rw [hreaches.perform_eq, write_ending, hnone]
  | unwritable hreaches hrefused => rw [hreaches.perform_eq, write_ending, hrefused]
  | absent habsent =>
    have hpresent : tree.present (Path.ofText c.source) = .ok false :=
      FileTree.present_eq_false_iff.mpr habsent
    rw [perform, hpresent]
    rfl
  | unreadable hnull hlookup =>
    unfold sourcePath at hnull hlookup
    have hpresent : tree.present (Path.ofText c.source) = .ok true := by
      rw [FileTree.present, hnull, hlookup]
      rfl
    have hread : tree.read (Path.ofText c.source) =
        .error (.refused .isDirectory (some (Path.ofText c.source))) := by
      rw [FileTree.read, hnull, hlookup]
      rfl
    rw [perform, hpresent]
    dsimp only
    rw [FileTree.readText, hread]
    rfl
  | faultyPair htext hmem hpair =>
    rw [perform_of_text htext, replace]
    cases hpairs : readPairs c.pairs with
    | error fault => rfl
    | ok table =>
      obtain ⟨name, value, hname, heq⟩ := exists_readPairs_iff.mp ⟨table, hpairs⟩ _ hmem
      exact absurd heq (hpair name value hname)

theorem Escapes.ending (h : Escapes c tree trouble) : (c.perform tree).ending = .error trouble := by
  cases h with
  | nameTooLong hnull hlookup =>
    unfold sourcePath at hnull hlookup
    have hpresent : tree.present (Path.ofText c.source) =
        .error (.refused .nameTooLong (some (Path.ofText c.source))) := by
      rw [FileTree.present, hnull, hlookup]
      rfl
    rw [perform, hpresent]
    rfl
  | noText hread hnone hfault =>
    unfold sourcePath at hread
    rw [perform, FileTree.present_of_read hread]
    dsimp only
    rw [FileTree.readText, hread]
    dsimp only
    rw [hfault]
    rfl
  | nullCharacter hreaches hmeets =>
    rw [hreaches.perform_eq, write_ending, FileTree.deliverText_null_iff.mpr hmeets]

/-- A command that comes to the writing of a text ends by what the system says to that. -/
theorem Reaches.cases (h : Reaches c tree out) :
    (∃ code, Exits c tree code) ∨ ∃ trouble, Escapes c tree trouble := by
  cases hdeliver : (tree.deliverText c.targetPath out).2 with
  | none => exact .inl ⟨0, .written h hdeliver⟩
  | some e =>
    cases e with
    | refused errno path => exact .inl ⟨1, .unwritable h hdeliver⟩
    | nullCharacter =>
      exact .inr ⟨_, .nullCharacter h (FileTree.deliverText_null_iff.mp hdeliver)⟩

/-- What becomes of a command whose input is a file. -/
theorem exits_or_escapes_of_read {content : List UInt8}
    (hread : tree.read c.sourcePath = .ok content) :
    (∃ code, Exits c tree code) ∨ ∃ trouble, Escapes c tree trouble := by
  cases hdecode : Text.Utf8.decode content with
  | error fault =>
    have hnone : ∀ s, content ≠ Text.Utf8.encode s :=
      Text.Utf8.exists_decode_eq_error_iff.mp ⟨fault, hdecode⟩
    exact .inr ⟨_, .noText hread hnone hdecode⟩
  | ok s =>
    have htext : tree.HoldsText c.sourcePath (String.ofList (Text.unifyLineEnds s.toList)) :=
      ⟨s, Text.Utf8.decode_eq_ok_iff.mp hdecode ▸ hread, rfl⟩
    cases hpairs : readPairs c.pairs with
    | ok table => exact Reaches.cases (.mk htext hpairs)
    | error fault =>
      -- If each of the pairs gave a variable, the pairs would be read.
      by_contra hnever
      have hgives : ∀ pair ∈ c.pairs, ∃ name value, IsName name ∧ pair = pairOf (name, value) := by
        intro pair hmem
        by_contra hpair
        refine hnever (.inl ⟨2, .faultyPair htext hmem fun name value hname heq => ?_⟩)
        exact hpair ⟨name, value, hname, heq⟩
      obtain ⟨table, htable⟩ := exists_readPairs_iff.mpr hgives
      cases hpairs.symm.trans htable

/-- Every command ends in one of the ways. -/
theorem exits_or_escapes (c : Expand) (tree : FileTree) :
    (∃ code, Exits c tree code) ∨ ∃ trouble, Escapes c tree trouble := by
  cases hnull : c.sourcePath.holdsNull with
  | true => exact .inl ⟨2, .absent (.inl hnull)⟩
  | false =>
    cases hlookup : tree.lookup c.sourcePath with
    | error errno =>
      by_cases hlong : errno = .nameTooLong
      · rw [hlong] at hlookup
        exact .inr ⟨_, .nameTooLong hnull hlookup⟩
      · exact .inl ⟨2, .absent (.inr ⟨errno, hlookup, hlong⟩)⟩
    | ok node =>
      cases node with
      | directory => exact .inl ⟨1, .unreadable hnull hlookup⟩
      | file content =>
        exact exits_or_escapes_of_read (FileTree.read_eq_ok_iff.mpr ⟨hnull, hlookup⟩)

theorem ending_eq_ok_iff : (c.perform tree).ending = .ok code ↔ Exits c tree code := by
  refine ⟨fun h => ?_, Exits.ending⟩
  rcases exits_or_escapes c tree with ⟨code', hexits⟩ | ⟨trouble, hescapes⟩
  · obtain rfl := Except.ok.inj (hexits.ending.symm.trans h)
    exact hexits
  · cases hescapes.ending.symm.trans h

theorem ending_eq_error_iff :
    (c.perform tree).ending = .error trouble ↔ Escapes c tree trouble := by
  refine ⟨fun h => ?_, Escapes.ending⟩
  rcases exits_or_escapes c tree with ⟨code, hexits⟩ | ⟨trouble', hescapes⟩
  · cases hexits.ending.symm.trans h
  · obtain rfl := Except.error.inj (hescapes.ending.symm.trans h)
    exact hescapes

theorem Exits.le_two (h : Exits c tree code) : code ≤ 2 := by
  cases h <;> decide

/-! ## What the command has done -/

/-- A command that does not come to the writing of a text leaves the files alone. -/
theorem reaches_or_tree_eq (c : Expand) (tree : FileTree) :
    (∃ out, Reaches c tree out) ∨ (c.perform tree).tree = tree := by
  unfold perform
  dsimp only
  split
  case h_1 => exact .inr rfl
  case h_2 => exact .inr rfl
  case h_3 =>
    split
    case h_2 => exact .inr rfl
    case h_3 => exact .inr rfl
    case h_1 text hread =>
      unfold replace
      split
      case h_1 => exact .inr rfl
      case h_2 table hpairs =>
        have htext : tree.HoldsText c.sourcePath text := FileTree.readText_eq_ok_iff.mp hread
        exact .inl ⟨_, .mk htext hpairs⟩

/-- With exit code 0 the expanded text has been written. -/
theorem writes_of_ending (h : (c.perform tree).ending = .ok 0) :
    Writes c tree (c.perform tree).tree := by
  cases ending_eq_ok_iff.mp h with
  | written hreaches hnone =>
    rw [hreaches.perform_eq, write_tree]
    obtain ⟨hnull, hlocate, hchanged⟩ := FileTree.deliverText_written (Prod.ext rfl hnone)
    obtain ⟨htext, hpairs⟩ := hreaches
    refine .mk htext (isTableOf_readPairs hpairs) ?_ fun place hplace => ?_
    · exact FileTree.read_of_locate hnull hlocate (hchanged.file (if_pos rfl))
    · rw [hchanged.content?_eq, FileTree.oneFile, if_neg hplace, Option.none_or]

/-- With any other exit code, and if something escapes, every file holds what it held, and none has
come or gone, unless the storage has cut the output short. -/
theorem content?_of_ending (h : (c.perform tree).ending ≠ .ok 0) :
    (∀ place, (c.perform tree).tree.content? place = tree.content? place) ∨
      CutsShort c tree (c.perform tree).tree := by
  rcases reaches_or_tree_eq c tree with ⟨out, hreaches⟩ | htree
  · rw [hreaches.perform_eq, write_ending] at h
    rw [hreaches.perform_eq, write_tree]
    have hchanged := tree.deliverText_changed c.targetPath out
    rcases tree.deliverText_cases c.targetPath out with
      ⟨hleaves, -⟩ | ⟨-, hnone⟩ | ⟨cut, hcut, hleaves, herror⟩
    · refine .inl fun place => ?_
      rw [hchanged.content?_eq, hleaves]
      exact Option.none_or
    · rw [hnone] at h
      exact absurd rfl h
    · refine .inr (.mk hreaches hcut herror fun place => ?_)
      rw [hchanged.content?_eq, hleaves, Option.elim_some, FileTree.oneFile]
      split
      · rfl
      · exact Option.none_or
  · exact .inl fun place => by rw [htree]

/-- Expanding a file ends with exit code 0, 1 or 2, or something escapes, in just the listed ways;
and something escapes only for a path of the input that is too long, for octets that encode no text
and for the null character in the path of the output. With exit code 0 the output holds the text of
the input, resolved under the variables of which the last pairs count; in all other cases no file
has changed, unless the storage has cut the output short. -/
theorem perform_ends (c : Expand) (tree : FileTree) :
    ((∃ code ≤ 2, (c.perform tree).ending = .ok code) ↔ ∀ trouble, ¬Escapes c tree trouble) ∧
      (∀ code, (c.perform tree).ending = .ok code ↔ Exits c tree code) ∧
      (∀ trouble, (c.perform tree).ending = .error trouble ↔ Escapes c tree trouble) ∧
      ((c.perform tree).ending = .ok 0 → Writes c tree (c.perform tree).tree) ∧
      ((c.perform tree).ending ≠ .ok 0 →
        (∀ place, (c.perform tree).tree.content? place = tree.content? place) ∨
          CutsShort c tree (c.perform tree).tree) := by
  -- No command both ends with an exit code and lets something escape, and each does one of them.
  refine ⟨⟨?_, fun hnever => ?_⟩, fun _ => ending_eq_ok_iff, fun _ => ending_eq_error_iff,
    writes_of_ending, content?_of_ending⟩
  · rintro ⟨code, -, hcode⟩ trouble hescapes
    cases hcode.symm.trans hescapes.ending
  · rcases exits_or_escapes c tree with ⟨code, hexits⟩ | ⟨trouble, hescapes⟩
    · exact ⟨code, hexits.le_two, hexits.ending⟩
    · exact absurd hescapes (hnever trouble)

/-- A directory with a file of one octet that begins no character. -/
def octetTree : FileTree :=
  (FileTree.ofCurrent ["flows"]).put ["flows", "a.txt"] (.file [0xFF])

-- What the octet is told to be escapes, and so it does before a pair that gives no variable.
example :
    ((⟨"a.txt", "b.txt", 10, ["novalue"]⟩ : Expand).perform octetTree).ending =
      .error (.encoding ⟨0xFF, 0, 1, .invalidStart⟩) := by
  decide +kernel

end CommandLine.Expand

end Runbook

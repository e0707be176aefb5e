import Runbook.Proofs.Json.Completeness
import Runbook.Proofs.Json.Surrogate
import Runbook.Value.Encode

/-!
# Written values are read back

What is written of a JSON value, compact or with any indentation, denotes that value again, and so
the strict reader gives it back: members stay in order, and numbers keep their characters.

The module introduces `Json.WellFormed`, which says what a value needs for that, and the main result
is `Json.parse_encode`.
-/

namespace Runbook.Json

/-! ## Well-formed values -/

mutual

/-- The literals of numbers are such, and the keys of every object are different. -/
def WellFormed : Json → Prop
  | .number literal => IsNumber literal.toList
  | .array items => WellFormedItems items
  | .object members => (members.map Prod.fst).Nodup ∧ WellFormedMembers members
  | _ => True

/-- All items are well-formed. -/
def WellFormedItems : List Json → Prop
  | [] => True
  | item :: items => WellFormed item ∧ WellFormedItems items

/-- The values of all members are well-formed. -/
def WellFormedMembers : List (String × Json) → Prop
  | [] => True
  | (_, value) :: members => WellFormed value ∧ WellFormedMembers members

end

/-! ## Objects -/

/-- A member with a new key comes last. -/
theorem putMember_of_notMem {key : String} {members : List (String × Json)}
    (h : key ∉ members.map Prod.fst) (value : Json) :
    putMember key value members = members ++ [(key, value)] := by
  induction members with
  | nil => rfl
  | cons first members ih =>
    obtain ⟨k, v⟩ := first
    obtain ⟨hk, hmembers⟩ := not_or.mp (mt List.mem_cons.mpr h)
    rw [putMember, if_neg (Ne.symm hk), ih hmembers]
    rfl

/-- Members with different keys that come after others are all added to them. -/
theorem foldl_putMember {done members : List (String × Json)}
    (h : ((done ++ members).map Prod.fst).Nodup) :
    members.foldl (fun done member => putMember member.1 member.2 done) done =
      done ++ members := by
  induction members generalizing done with
  | nil => simp
  | cons member members ih =>
    have hfresh : member.1 ∉ done.map Prod.fst := by
      intro hmem
      rw [List.map_append, List.map_cons] at h
      exact (List.nodup_append.mp h).2.2 _ hmem _ List.mem_cons_self rfl
    have hrest := ih (by simpa using h : ((done ++ [member] ++ members).map Prod.fst).Nodup)
    rw [List.foldl_cons, putMember_of_notMem hfresh, hrest, List.append_assoc]
    rfl

/-- Members with different keys are all kept. -/
theorem collapse_of_nodup {members : List (String × Json)}
    (h : (members.map Prod.fst).Nodup) : collapse members = members :=
  foldl_putMember (by simpa using h : (([] ++ members).map Prod.fst).Nodup)

/-! ## Strings -/

/-- Four hexadecimal digits of a control character denote it. -/
theorem hexNumber?_hexDigits : ∀ n < 0x20,
    hexNumber? (Text.hexDigit (n / 16 / 16 / 16 % 16)) (Text.hexDigit (n / 16 / 16 % 16))
      (Text.hexDigit (n / 16 % 16)) (Text.hexDigit (n % 16)) = some n := by
  decide

/-- A character as it stands inside a string spells the character. -/
theorem spells_escapedChar (c : Char) {cs : List Char} {codes : List Nat}
    (h : Spells cs codes) : Spells (escapedChar c ++ cs) (c.toNat :: codes) := by
  by_cases hletter : c ∈ ['"', '\\', '\n', '\r', '\t', '\x0c', '\x08']
  · simp only [List.mem_cons, List.not_mem_nil, or_false] at hletter
    rcases hletter with rfl | rfl | rfl | rfl | rfl | rfl | rfl <;> exact .letter rfl h
  · simp only [List.mem_cons, List.not_mem_nil, or_false, not_or] at hletter
    obtain ⟨hquote, hescape, hline, hreturn, htab, hfeed, hback⟩ := hletter
    rw [escapedChar, if_neg hquote, if_neg hescape, if_neg hline, if_neg hreturn, if_neg htab,
      if_neg hfeed, if_neg hback]
    split
    -- A control character without a letter of its own is escaped by number.
    · rename_i hcontrol
      exact .number (hexNumber?_hexDigits c.toNat hcontrol) h
    · rename_i hprintable
      exact .plain hquote hescape (Nat.not_lt.mp hprintable) h

theorem spells_escaped (cs : List Char) : Spells (cs.flatMap escapedChar) (cs.map Char.toNat) := by
  induction cs with
  | nil => exact .nil
  | cons c cs ih => exact spells_escapedChar c ih

theorem spelt_toNat (s : String) : spelt (s.toList.map Char.toNat) = s := by
  rw [spelt, (forms_map_toNat s.toList).joinSurrogates_eq, String.ofList_toList]

/-- The text of a string denotes the string. -/
theorem denotes_stringText (s : String) : Denotes (stringText s) (.string s) := by
  have h := Denotes.string (spells_escaped s.toList)
  rw [spelt_toNat] at h
  exact h

/-! ## Collections -/

theorem isBlank_nil : IsBlank [] := fun c hc => by cases hc

/-- A line end with its indentation is white space. -/
theorem isBlank_newLine (width depth : Nat) : IsBlank (newLine width depth) := by
  intro c hc
  rcases List.mem_cons.mp hc with rfl | hc
  · decide
  · rw [(List.mem_replicate.mp hc).2]
    decide

/-- However parts are laid out, only white space stands between them beside the commas. -/
theorem enclose_of_ne_nil (layout : Layout) (depth : Nat) (opening closing : Char)
    {parts : List (List Char)} (h : parts ≠ []) :
    ∃ before after, IsBlank before ∧ IsBlank after ∧
      enclose layout depth opening closing parts =
        opening :: (before ++ ((Text.joinWith (',' :: before) parts ++ after) ++ [closing])) := by
  have hsome : parts.isEmpty = false := by
    cases parts with
    | nil => exact absurd rfl h
    | cons => rfl
  cases layout with
  | none =>
    refine ⟨[], [], isBlank_nil, isBlank_nil, ?_⟩
    simp [enclose, hsome]
  | some width =>
    refine ⟨newLine width (depth + 1), newLine width depth, isBlank_newLine _ _,
      isBlank_newLine _ _, ?_⟩
    simp [enclose, hsome]

theorem joinWith_cons_cons (separator first second : List Char) (pieces : List (List Char)) :
    Text.joinWith separator (first :: second :: pieces) =
      first ++ (separator ++ Text.joinWith separator (second :: pieces)) := by
  rw [Text.joinWith, List.append_assoc]
  simp

/-- A key and a value with the mark between them are a member. -/
theorem denotesMember_print (layout : Layout) (key : String) {cs : List Char} {value : Json}
    (h : Denotes cs value) :
    DenotesMember (stringText key ++ keyMark layout ++ cs) (key, value) := by
  have hspells := spells_escaped key.toList
  have hspace : IsBlank [' '] := by
    intro c hc
    rw [List.mem_singleton.mp hc]
    decide
  cases layout with
  | none =>
    have hmember := DenotesMember.intro hspells isBlank_nil isBlank_nil h
    rw [spelt_toNat] at hmember
    simpa [quoted, stringText, keyMark] using hmember
  | some width =>
    have hmember := DenotesMember.intro hspells isBlank_nil hspace h
    rw [spelt_toNat] at hmember
    simpa [quoted, stringText, keyMark] using hmember

section Print

variable (layout : Layout)

mutual

/-- What is written of a well-formed value denotes it. -/
theorem denotes_print (depth : Nat) (j : Json) (h : j.WellFormed) :
    Denotes (print layout depth j) j := by
  match j with
  | .null => exact .word (by simp [words, print])
  | .bool true => exact .word (by simp [words, print])
  | .bool false => exact .word (by simp [words, print])
  | .number literal =>
    have hnumber := Denotes.number h
    rwa [String.ofList_toList] at hnumber
  | .string text => exact denotes_stringText text
  | .array items =>
    have hitems {before after : List Char} :=
      denotesItems_print (depth + 1) items h before after
    cases items with
    | nil => exact .emptyArray isBlank_nil
    | cons item items =>
      obtain ⟨before, after, hbefore, hafter, henclose⟩ := enclose_of_ne_nil layout depth '[' ']'
        (List.cons_ne_nil (print layout (depth + 1) item) (printItems layout (depth + 1) items))
      rw [print, printItems, henclose]
      exact .array hbefore (hitems hbefore hafter (List.cons_ne_nil _ _))
  | .object members =>
    have hmembers {before after : List Char} :=
      denotesMembers_print (depth + 1) members h.2 before after
    cases members with
    | nil => exact .emptyObject isBlank_nil
    | cons member members =>
      obtain ⟨key, value⟩ := member
      obtain ⟨before, after, hbefore, hafter, henclose⟩ :=
        enclose_of_ne_nil layout depth '\x7b' '\x7d'
          (List.cons_ne_nil (stringText key ++ keyMark layout ++ print layout (depth + 1) value)
            (printMembers layout (depth + 1) members))
      -- The keys are different, so that no member is lost to another one.
      have hobject := Denotes.object hbefore
        (hmembers hbefore hafter (List.cons_ne_nil _ _))
      rw [collapse_of_nodup h.1] at hobject
      rw [print, printMembers, henclose]
      exact hobject

/-- What is written of well-formed items denotes them. -/
theorem denotesItems_print (depth : Nat) (items : List Json) (h : WellFormedItems items)
    (before after : List Char) (hbefore : IsBlank before) (hafter : IsBlank after)
    (hsome : items ≠ []) :
    DenotesItems (Text.joinWith (',' :: before) (printItems layout depth items) ++ after)
      items := by
  match items with
  | [] => exact absurd rfl hsome
  | item :: items =>
    have hitem := denotes_print depth item h.1
    have hrest := denotesItems_print depth items h.2 before after hbefore hafter
    cases items with
    | nil => exact .last hitem hafter
    | cons next items =>
      -- No white space stands before the comma.
      have hall := DenotesItems.cons hitem isBlank_nil hbefore (hrest (List.cons_ne_nil _ _))
      rw [printItems, printItems, joinWith_cons_cons]
      simpa [printItems] using hall

/-- What is written of well-formed members denotes them. -/
theorem denotesMembers_print (depth : Nat) (members : List (String × Json))
    (h : WellFormedMembers members) (before after : List Char) (hbefore : IsBlank before)
    (hafter : IsBlank after) (hsome : members ≠ []) :
    DenotesMembers (Text.joinWith (',' :: before) (printMembers layout depth members) ++ after)
      members := by
  match members with
  | [] => exact absurd rfl hsome
  | (key, value) :: members =>
    have hmember := denotesMember_print layout key (denotes_print depth value h.1)
    have hrest := denotesMembers_print depth members h.2 before after hbefore hafter
    cases members with
    | nil => exact .last hmember hafter
    | cons next members =>
      have hall := DenotesMembers.cons hmember isBlank_nil hbefore
        (hrest (List.cons_ne_nil _ _))
      rw [printMembers, printMembers, joinWith_cons_cons]
      simpa [printMembers] using hall

end

end Print

/-- What is written of a well-formed value is read as that value. -/
theorem parse_render {j : Json} (h : j.WellFormed) (layout : Layout) :
    parse .strict (j.render layout) = .ok j := by
  refine parse_of_denotes ⟨[], print layout 0 j, [], isBlank_nil, isBlank_nil, ?_, ?_⟩
  · exact denotes_print layout 0 j h
  · rw [render, String.toList_ofList, List.append_nil]
    rfl

end Runbook.Json

namespace Runbook.Value

/-! ## Values made of JSON -/

mutual

/-- A JSON value comes back from the value that is made of it. -/
theorem toJson_ofJson (j : Json) : (ofJson j).toJson = .ok j := by
  match j with
  | .null => rfl
  | .bool b => rfl
  | .number literal => rfl
  | .string s => rfl
  | .array items => rw [ofJson, toJson, toJsonItems_ofItems items]; rfl
  | .object members => rw [ofJson, toJson, toJsonEntries_ofMembers members]; rfl

theorem toJsonItems_ofItems (items : List Json) : toJsonItems (ofItems items) = .ok items := by
  match items with
  | [] => rfl
  | item :: items =>
    rw [ofItems, toJsonItems, toJson_ofJson item, toJsonItems_ofItems items]
    rfl

theorem toJsonEntries_ofMembers (members : List (String × Json)) :
    toJsonEntries (ofMembers members) = .ok members := by
  match members with
  | [] => rfl
  | (key, value) :: members =>
    rw [ofMembers, toJsonEntries, toJson_ofJson value, toJsonEntries_ofMembers members]
    rfl

end

/-- A value made of JSON is written as the JSON is. -/
theorem encode_ofJson (j : Json) (layout : Json.Layout) :
    (ofJson j).encode layout = .ok (j.render layout) := by
  rw [encode, toJson_ofJson]
  rfl

end Runbook.Value

namespace Runbook.Json

/-- Encoding and decoding again loses nothing: a value made of well-formed JSON is written in every
layout, what is written is read as the same JSON, and that is written in any other layout just as
the value was. -/
theorem parse_encode {j : Json} (h : j.WellFormed) (layout : Layout) :
    ∃ s, (Value.ofJson j).encode layout = .ok s ∧ parse .strict s = .ok j ∧
      ∀ other, (parse .strict s).map (fun read => (Value.ofJson read).encode other) =
        .ok ((Value.ofJson j).encode other) := by
  have hparse := parse_render h layout
  refine ⟨j.render layout, Value.encode_ofJson j layout, hparse, ?_⟩
  intro other
  rw [hparse]
  rfl

/-- A value with all kinds of parts: numbers that are not in their shortest form, a string that
looks like a number, one in which everything is escaped, and collections without parts. -/
def sampleJson : Json :=
  .object [("n", .number "1.50"), ("s", .string "1.50"), ("empty", .array []),
    ("items", .array [.number "-0", .number "1e5", .bool true, .null, .object []]),
    ("quote\"", .string "\\ \n \x01 é")]

/-- A number with digits after the point that it does without. -/
theorem isNumber_fraction : IsNumber ['1', '.', '5', '0'] := by
  refine ⟨[], ['1'], ['.', '5', '0'], [], ⟨.inl rfl, ?_, ?_, .none⟩, rfl⟩
  · exact .digits (by decide) (by decide) (fun c hc => by cases hc)
  · refine .digits (by decide) fun c hc => ?_
    obtain rfl := List.mem_singleton.mp hc
    decide

theorem wellFormed_sampleJson : sampleJson.WellFormed := by
  have hzero : IsNumber ['-', '0'] :=
    ⟨['-'], ['0'], [], [], ⟨.inr rfl, .zero, .none, .none⟩, rfl⟩
  have hexponent : IsNumber ['1', 'e', '5'] := by
    refine ⟨[], ['1'], [], 'e' :: ([] ++ ['5']), ⟨.inl rfl, ?_, .none, ?_⟩, rfl⟩
    · exact .digits (by decide) (by decide) (fun c hc => by cases hc)
    · exact .digits (.inl rfl) (by simp) (by decide) (fun c hc => by cases hc)
  simp only [sampleJson, WellFormed, WellFormedItems, WellFormedMembers, and_true, true_and]
  exact ⟨by decide, isNumber_fraction, hzero, hexponent, by simp⟩

/-- The value is read back from its indented form. -/
theorem parse_encode_sample :
    sampleJson.WellFormed ∧
      ∃ s, (Value.ofJson sampleJson).encode (some 2) = .ok s ∧
        parse .strict s = .ok sampleJson := by
  obtain ⟨s, hencode, hparse, -⟩ := parse_encode wellFormed_sampleJson (some 2)
  exact ⟨wellFormed_sampleJson, s, hencode, hparse⟩

end Runbook.Json

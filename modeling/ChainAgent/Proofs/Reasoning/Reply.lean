import ChainAgent.Reasoning.Reply
import ChainAgent.Proofs.Json.Members

/-! Parsing of payloads.

A payload is a JSON object with surrounding whitespace, or it is taken as it is. Thought and reply
of the object are its last members of these names; if it has a reply, this is the reply, however the
JSON is written, and otherwise the whole payload is (`parseReply_classes`). -/
namespace ChainAgent.Reasoning

open Json (IsDocument Node Value lookup memberValues? named readDocument)
open Text (saysNothing)

/-- A text that is a valid JSON object with these members, with surrounding whitespace. -/
def IsObject (raw : String) (ms : List (Option String × Node)) : Prop :=
  IsDocument raw (.object ms) ∧ (Node.object ms).Within Json.nestingLimit

/-- The text under a name in an object: that of the last such member, or empty if there is none. -/
def Says (name : String) (ms : List (Option String × Node)) (said : String) : Prop :=
  (named name ms).getLast? = some (.text (some said)) ∨ named name ms = [] ∧ said = ""

/-- The last member of the name is no string. -/
def Garbles (name : String) (ms : List (Option String × Node)) : Prop :=
  ∃ n, (named name ms).getLast? = some n ∧ ∀ said, n ≠ .text (some said)

/-! ### Members -/

section Members

variable {ms : List (Option String × Node)} {name : String}

theorem Says.not_garbles {said : String} (h : Says name ms said) : ¬ Garbles name ms := by
  rintro ⟨n, hlast, hn⟩
  obtain h | ⟨h, -⟩ := h
  · rw [h] at hlast
    cases hlast
    exact hn said rfl
  · rw [h] at hlast
    cases hlast

/-- A name whose last member is a string, or that is missing, has a text. -/
theorem exists_says (h : ¬ Garbles name ms) : ∃ said, Says name ms said := by
  cases hlast : (named name ms).getLast? with
  | none => exact ⟨"", .inr ⟨List.getLast?_eq_none_iff.mp hlast, rfl⟩⟩
  | some n =>
    by_contra hnone
    refine h ⟨n, hlast, ?_⟩
    rintro said rfl
    exact hnone ⟨said, .inl hlast⟩

/-- The last member of a name has a value, if all members have. -/
theorem exists_value_of_last {depth : Nat} {members : List (String × Value)} {n : Node}
    (h : memberValues? depth ms = some members) (hlast : (named name ms).getLast? = some n) :
    ∃ v, n.value? depth = some v := by
  have hall := (Json.isSome_memberValues?_iff.mp (Option.isSome_of_eq_some h)).2
  exact Option.isSome_iff_exists.mp (hall _ (Json.mem_named.mp (List.mem_of_getLast? hlast)))

theorem textMember_eq_some_iff {depth : Nat} {members : List (String × Value)} {said : String}
    (h : memberValues? depth ms = some members) :
    textMember name members = some said ↔ Says name ms said := by
  rw [textMember, Json.lookup_eq h, Says]
  cases hlast : (named name ms).getLast? with
  | none =>
    have hnone := List.getLast?_eq_none_iff.mp hlast
    simp [hnone, eq_comm]
  | some n =>
    have hsome : named name ms ≠ [] := fun hnil => by
      rw [hnil] at hlast
      cases hlast
    obtain ⟨v, hv⟩ := exists_value_of_last h hlast
    rw [Option.bind_some, Option.some.injEq, ← @Json.value?_eq_text_iff depth, hv]
    cases v <;> simp [hsome]

end Members

/-! ### Payloads -/

variable {raw : String} {ms : List (Option String × Node)} {r : Reply}

theorem parse_trim_eq_some_iff {v : Value} : Json.parse (Text.trim raw) = some v ↔
    ∃ n, IsDocument raw n ∧ n.value? Json.nestingLimit = some v := by
  simp only [← Json.readDocument_trim_eq_iff, Json.parse]
  obtain ⟨n, ended⟩ := readDocument (Text.trim raw)
  cases ended <;> simp

/-- An object with a value, and its members. -/
theorem isObject_iff : IsObject raw ms ↔ IsDocument raw (.object ms) ∧
    ∃ members, (Node.object ms).value? Json.nestingLimit = some (.object members) := by
  refine and_congr_right fun _ => ?_
  rw [← Json.isSome_value?_iff, Option.isSome_iff_exists]
  refine ⟨fun ⟨v, hv⟩ => ?_, fun ⟨members, hv⟩ => ⟨_, hv⟩⟩
  obtain ⟨members, _, rfl⟩ := Option.map_eq_some_iff.mp hv
  exact ⟨members, hv⟩

theorem members?_eq_some_iff {v : Value} {members : List (String × Value)} :
    v.members? = some members ↔ v = .object members := by
  cases v <;> simp [Value.members?]

/-- A payload is structured if it is an object whose thought and reply are strings or missing. -/
theorem structured?_trim_eq_some_iff : structured? (Text.trim raw) = some r ↔
    ∃ ms, IsObject raw ms ∧ Says "thought" ms r.thought ∧ Says "reply" ms r.reply := by
  -- An object has a value only where a level is left for its members.
  have hlimit : Json.nestingLimit = 126 + 1 := rfl
  simp only [structured?, Option.bind_eq_bind, Option.bind_eq_some_iff, parse_trim_eq_some_iff,
    members?_eq_some_iff]
  constructor
  · rintro ⟨_, ⟨n, hdocument, hv⟩, members, rfl, thought, hthought, reply, hreply, hr⟩
    cases hr
    obtain ⟨ms, rfl, hmembers⟩ := Json.value?_eq_object_iff.mp (hlimit ▸ hv)
    exact ⟨ms, isObject_iff.mpr ⟨hdocument, members, hv⟩, (textMember_eq_some_iff hmembers).mp hthought,
      (textMember_eq_some_iff hmembers).mp hreply⟩
  · rintro ⟨ms, hobject, hthought, hreply⟩
    obtain ⟨hdocument, members, hv⟩ := isObject_iff.mp hobject
    obtain ⟨_, hms, hmembers⟩ := Json.value?_eq_object_iff.mp (hlimit ▸ hv)
    cases hms
    exact ⟨_, ⟨_, hdocument, hv⟩, members, rfl, r.thought, (textMember_eq_some_iff hmembers).mpr hthought,
      r.reply, (textMember_eq_some_iff hmembers).mpr hreply, rfl⟩

/-- A text that is an object is not blank. -/
theorem IsObject.not_saysNothing (h : IsObject raw ms) : saysNothing raw = false :=
  h.1.not_saysNothing

/-! ### Replies -/

theorem parseReply_of_blank (h : saysNothing raw = true) : parseReply raw = .error .emptyReply := by
  rw [parseReply, if_pos h]

theorem parseReply_of_structured (h : saysNothing raw = false) (hr : structured? (Text.trim raw) = some r) :
    parseReply raw = .ok ⟨r.thought, if saysNothing r.reply then raw else r.reply⟩ := by
  rw [parseReply, if_neg (Bool.eq_false_iff.mp h), hr]
  dsimp only
  split <;> rfl

theorem parseReply_of_plain (h : saysNothing raw = false) (hnone : structured? (Text.trim raw) = none) :
    parseReply raw = .ok ⟨"", raw⟩ := by
  rw [parseReply, if_neg (Bool.eq_false_iff.mp h), hnone]

/-- The reply of a payload that is not blank is not blank. -/
theorem exists_parseReply (h : saysNothing raw = false) :
    ∃ r, parseReply raw = .ok r ∧ saysNothing r.reply = false := by
  cases hr : structured? (Text.trim raw) with
  | none => exact ⟨_, parseReply_of_plain h hr, h⟩
  | some r =>
    refine ⟨_, parseReply_of_structured h hr, ?_⟩
    dsimp only
    split
    · exact h
    · rename_i hreply
      exact Bool.eq_false_iff.mpr hreply

/-- **Every payload but a blank one has a reply.** The reply and the thought are those of the
object, however its JSON is written, or the reply is the whole payload if the object's is blank; any
other payload is the reply itself. -/
theorem parseReply_classes (raw : String) :
    (parseReply raw = .error .emptyReply ↔ saysNothing raw = true) ∧
    (∀ f, parseReply raw = .error f → f = .emptyReply) ∧
    (∀ r, parseReply raw = .ok r → saysNothing r.reply = false) ∧
    (∀ ms thought reply, IsObject raw ms → Says "thought" ms thought → Says "reply" ms reply →
      parseReply raw = .ok ⟨thought, if saysNothing reply then raw else reply⟩) ∧
    (saysNothing raw = false →
      (∀ ms, IsObject raw ms → Garbles "thought" ms ∨ Garbles "reply" ms) →
      parseReply raw = .ok ⟨"", raw⟩) ∧
    (saysNothing raw = true ∨
      (∃ ms thought reply, IsObject raw ms ∧ Says "thought" ms thought ∧ Says "reply" ms reply) ∨
      ∀ ms, IsObject raw ms → Garbles "thought" ms ∨ Garbles "reply" ms) := by
  have hfails {f : Failure} (hf : parseReply raw = .error f) : saysNothing raw = true := by
    by_contra hsays
    obtain ⟨r, hr, -⟩ := exists_parseReply (Bool.eq_false_iff.mpr hsays)
    rw [hr] at hf
    cases hf
  refine ⟨⟨hfails, parseReply_of_blank⟩, ?_, ?_, ?_, ?_, ?_⟩
  · intro f hf
    rw [parseReply_of_blank (hfails hf)] at hf
    cases hf
    rfl
  · intro r hr
    cases hsays : saysNothing raw with
    | true =>
      rw [parseReply_of_blank hsays] at hr
      cases hr
    | false =>
      obtain ⟨r', hr', hreply⟩ := exists_parseReply hsays
      rw [hr'] at hr
      cases hr
      exact hreply
  · intro ms thought reply hobject hthought hreply
    exact parseReply_of_structured (r := ⟨thought, reply⟩) hobject.not_saysNothing
      (structured?_trim_eq_some_iff.mpr ⟨ms, hobject, hthought, hreply⟩)
  · intro hsays hgarbled
    refine parseReply_of_plain hsays (Option.eq_none_iff_forall_ne_some.mpr fun r hr => ?_)
    obtain ⟨ms, hobject, hthought, hreply⟩ := structured?_trim_eq_some_iff.mp hr
    obtain h | h := hgarbled ms hobject
    · exact hthought.not_garbles h
    · exact hreply.not_garbles h
  · refine .inr (or_iff_not_imp_left.mpr fun hnone ms hobject => ?_)
    by_contra hgarbled
    rw [not_or] at hgarbled
    obtain ⟨thought, hthought⟩ := exists_says hgarbled.1
    obtain ⟨reply, hreply⟩ := exists_says hgarbled.2
    exact hnone ⟨ms, thought, reply, hobject, hthought, hreply⟩

/-- An escaped surrogate pair is decoded to its character, and whitespace is ignored. -/
theorem parseReply_classes_escaped :
    let raw := "\x7b \"reply\":\"\\ud83d\\ude00\",\"thought\":\"a\\/b\"\x7d\n"
    ∃ ms, IsObject raw ms ∧ Says "thought" ms "a/b" ∧ Says "reply" ms "😀" ∧
      parseReply raw = .ok ⟨"a/b", "😀"⟩ := by
  intro raw
  let ms : List (Option String × Node) :=
    [(some "reply", .text (some "😀")), (some "thought", .text (some "a/b"))]
  have hpair : Json.WritesText (some "😀") "\\ud83d\\ude00".toList :=
    .whole (.cons (@Json.WritesUnit.hex ['d', '8', '3', 'd'] rfl (List.all_eq_true.mp rfl))
      (.cons (@Json.WritesUnit.hex ['d', 'e', '0', '0'] rfl (List.all_eq_true.mp rfl)) .nil))
      (.pair (by decide) (by decide) (by decide) .nil)
  have hsolidus : Json.WritesText (some "a/b") "a\\/b".toList :=
    .whole (.cons (.plain (c := 'a') (by decide) (by decide) (by decide)) (.cons (.short (e := '/') rfl)
      (.cons (.plain (c := 'b') (by decide) (by decide) (by decide)) .nil)))
      (.one 'a' (.one '/' (.one 'b' .nil)))
  have hdocument : IsDocument raw (.object ms) :=
    ⟨[], _, ['\n'], rfl, rfl, .object (@Json.Writes.member _ _ _ [' '] _ [] [] _ [] _ rfl
      (Json.writesText_plain (by simp)) rfl rfl (.text hpair) rfl
      (@Json.Writes.lastMember _ _ [] _ [] [] _ [] rfl (Json.writesText_plain (by simp)) rfl rfl
        (.text hsolidus) rfl)), by decide +kernel⟩
  have hwithin : (Node.object ms).Within Json.nestingLimit :=
    @Node.Within.object 126 ms (by simp [ms]) (by simpa [ms] using ⟨.text, .text⟩)
  have hthought : Says "thought" ms "a/b" := .inl rfl
  have hreply : Says "reply" ms "😀" := .inl rfl
  obtain ⟨-, -, -, hsaid, -, -⟩ := parseReply_classes raw
  exact ⟨ms, ⟨hdocument, hwithin⟩, hthought, hreply, hsaid ms _ _ ⟨hdocument, hwithin⟩ hthought hreply⟩

end ChainAgent.Reasoning

import ChainAgent.Proofs.Decimal.Notation
import ChainAgent.Proofs.Text.Preview
import ChainAgent.Proofs.Text.Redaction

/-! Sanitized text of a peer.

A sanitized text is short and shows no token (`sanitize_length_le`, `sanitize_showsNoToken`): it is
truncated after the redaction, and only the ellipsis can follow a prefix. Tokens consist of secret
characters, so a message that separates a text from its own words shows a token exactly if that text
does (`Wraps.showsNoToken_iff`). -/
namespace ChainAgent.Text

/-- A text that shows no token with a prefix. If it was truncated right after the prefix, the
ellipsis may look like one. -/
def ShowsNoToken (label cs : List Char) : Prop :=
  ∀ run, run ≠ [] → (∀ c ∈ run, isSecretChar c = true) → label ++ run <:+: cs → run <+: ellipsis

/-! ### Cut texts -/

section Cut

variable {label cs ds : List Char}

theorem IsClearOf.showsNoToken (h : IsClearOf label cs) : ShowsNoToken label cs := by
  intro run hne hsecret hshown
  obtain ⟨c, rest, rfl⟩ := List.exists_cons_of_ne_nil hne
  refine absurd ?_ (h c (hsecret c List.mem_cons_self))
  refine List.IsInfix.trans ?_ hshown
  exact ⟨[], rest, by simp⟩

theorem prefix_ellipsis_of_infix {part : List Char} (h : part <:+: ellipsis) : part <+: ellipsis := by
  have hdots : ellipsis = List.replicate 3 '.' := rfl
  rw [hdots] at h ⊢
  obtain ⟨n, hn, rfl⟩ := List.sublist_replicate_iff.mp h.sublist
  refine ⟨List.replicate (3 - n) '.', ?_⟩
  rw [List.replicate_append_replicate, Nat.add_sub_cancel' hn]

/-- In a clear text that is truncated only the ellipsis can follow a prefix. -/
theorem IsClearOf.append_ellipsis (h : IsClearOf label cs) :
    ShowsNoToken label (cs ++ ellipsis) := by
  intro run hne hsecret hshown
  obtain hin | hpoints | ⟨left, right, hsplit, hleft, hright⟩ := List.infix_append_iff.mp hshown
  · exact h.showsNoToken run hne hsecret hin
  · exact prefix_ellipsis_of_infix ((List.suffix_append label run).isInfix.trans hpoints)
  · obtain ⟨begun, rfl, rfl⟩ | ⟨more, rfl, rfl⟩ := List.append_eq_append_iff.mp hsplit
    · -- The prefix ends in front of the cut, so what is secret begins behind it.
      cases begun with
      | nil => exact hright
      | cons c begun =>
        refine absurd ?_ (h c (hsecret c (by simp)))
        refine List.IsInfix.trans ?_ hleft.isInfix
        exact ⟨[], begun, by simp⟩
    · exact prefix_ellipsis_of_infix
        ((List.suffix_append more run).isInfix.trans hright.isInfix)

theorem truncateChars_showsNoToken (h : IsClearOf label cs) (limit : Nat) :
    ShowsNoToken label (truncateChars cs limit) := by
  unfold truncateChars
  split
  · exact h.showsNoToken
  · have hkept : trimEnd (cs.take limit) <:+: cs :=
      (trimEnd_isPrefix _).isInfix.trans (List.take_prefix limit cs).isInfix
    exact (h.mono hkept).append_ellipsis

end Cut

/-- A sanitized text is short. -/
theorem sanitize_length_le (s : String) : (sanitize s).toList.length ≤ peerTextLimit + 3 := by
  rw [sanitize, truncate, String.toList_ofList]
  exact truncateChars_length_le _ _

/-- **A sanitized text shows no token.** -/
theorem sanitize_showsNoToken (s : String) {p : String} (hp : p ∈ tokenPrefixes) :
    ShowsNoToken p.toList (sanitize s).toList := by
  obtain ⟨g, hg, hlabel⟩ := exists_sign (List.mem_append_left valueMarkers hp)
  rw [sanitize, truncate, String.toList_ofList, ← hlabel]
  exact truncateChars_showsNoToken (redact_isClearOf _ hg) _

/-! ### Texts in messages -/

/-- Tokens consist of secret characters, their prefixes included. -/
theorem isSecretChar_of_mem_tokenPrefixes {p : String} (hp : p ∈ tokenPrefixes) :
    ∀ c ∈ p.toList, isSecretChar c = true := by
  have hall : ∀ p ∈ tokenPrefixes, p.toList.all isSecretChar = true := by decide
  exact List.all_eq_true.mp (hall p hp)

section Frames

variable {p : String} {front said back : List Char}

/-- A token stands on one side of a character that is not in tokens. -/
theorem showsNoToken_append_cons (hp : p ∈ tokenPrefixes) {c : Char} (hc : isSecretChar c = false) :
    ShowsNoToken p.toList (front ++ c :: back) ↔
      ShowsNoToken p.toList front ∧ ShowsNoToken p.toList back := by
  constructor
  · intro h
    refine ⟨fun run hne hsecret hshown => h run hne hsecret ?_,
      fun run hne hsecret hshown => h run hne hsecret ?_⟩
    · exact hshown.trans (List.prefix_append front _).isInfix
    · refine hshown.trans ?_
      exact ⟨front ++ [c], [], by simp⟩
  · rintro ⟨hfront, hback⟩ run hne hsecret hshown
    have hout : c ∉ p.toList ++ run := by
      intro hmem
      obtain hmem | hmem := List.mem_append.mp hmem
      · rw [isSecretChar_of_mem_tokenPrefixes hp c hmem] at hc
        cases hc
      · rw [hsecret c hmem] at hc
        cases hc
    obtain hleft | hright := infix_beside hout hshown
    · exact hfront run hne hsecret hleft
    · exact hback run hne hsecret hright

theorem showsNoToken_of_occurs {label cs : List Char} (h : occurs label cs = false) :
    ShowsNoToken label cs := by
  intro run _ _ hshown
  have hlabel : occurs label cs = true :=
    occurs_iff.mpr ((List.prefix_append label run).isInfix.trans hshown)
  rw [h] at hlabel
  cases hlabel

/-- A number shows no token, also with a colon: each prefix has a letter that numbers have not. -/
theorem showsNoToken_of_isNotation (hp : p ∈ tokenPrefixes) {cs : List Char}
    (h : ∀ c ∈ cs, Decimal.IsNotation c ∨ c = ':') : ShowsNoToken p.toList cs := by
  have hletter : ∀ p ∈ tokenPrefixes,
      p.toList.any (fun c => !c.isDigit && !(['.', 'e', '+', '-'].contains c) && c != ':') = true := by
    decide
  obtain ⟨c, hc, hother⟩ := List.any_eq_true.mp (hletter p hp)
  simp only [Bool.and_eq_true, Bool.not_eq_true', List.contains_eq_mem, decide_eq_false_iff_not,
    bne_iff_ne] at hother
  obtain ⟨⟨hdigit, hsign⟩, hcolon⟩ := hother
  intro run _ _ hshown
  obtain (hin | hin) | hin := h c (hshown.subset (List.mem_append_left run hc))
  · rw [hdigit] at hin
    cases hin
  · exact absurd hin hsign
  · exact absurd hin hcolon

/-- Words that show no token and end in a character that is not in tokens do not affect what
follows. -/
theorem showsNoToken_append_iff (hp : p ∈ tokenPrefixes)
    (h : ∀ c ∈ front.getLast?, isSecretChar c = false) (hfront : ShowsNoToken p.toList front) :
    ShowsNoToken p.toList (front ++ said) ↔ ShowsNoToken p.toList said := by
  cases hlast : front.getLast? with
  | none => rw [List.getLast?_eq_none_iff.mp hlast, List.nil_append]
  | some c =>
    obtain ⟨words, rfl⟩ := List.getLast?_eq_some_iff.mp hlast
    have hc := h c hlast
    rw [List.append_assoc, List.singleton_append, showsNoToken_append_cons hp hc]
    exact and_iff_right ((showsNoToken_append_cons hp hc).mp hfront).1

theorem append_showsNoToken_iff (hp : p ∈ tokenPrefixes)
    (h : ∀ c ∈ back.head?, isSecretChar c = false) (hback : ShowsNoToken p.toList back) :
    ShowsNoToken p.toList (said ++ back) ↔ ShowsNoToken p.toList said := by
  cases back with
  | nil => rw [List.append_nil]
  | cons c words =>
    have hc := h c rfl
    have hshown : ShowsNoToken p.toList ([] ++ c :: words) := hback
    rw [showsNoToken_append_cons hp hc]
    exact and_iff_left ((showsNoToken_append_cons hp hc).mp hshown).2

/-- The words of a message around a text: they are separated from it and show no token
themselves. -/
structure Frame (front back : List Char) : Prop where
  opens : ∀ c ∈ front.getLast?, isSecretChar c = false
  closes : ∀ c ∈ back.head?, isSecretChar c = false
  front : ∀ p ∈ tokenPrefixes, ShowsNoToken p.toList front
  back : ∀ p ∈ tokenPrefixes, ShowsNoToken p.toList back

theorem Frame.showsNoToken_iff (h : Frame front back) (hp : p ∈ tokenPrefixes) :
    ShowsNoToken p.toList (front ++ said ++ back) ↔ ShowsNoToken p.toList said := by
  rw [append_showsNoToken_iff hp h.closes (h.back p hp),
    showsNoToken_append_iff hp h.opens (h.front p hp)]

/-- Words inside other words. -/
theorem Frame.within {before behind : List Char} (h : Frame front back) (hwords : Frame before behind) :
    Frame (before ++ front) (back ++ behind) where
  opens := by
    intro c hc
    rw [List.getLast?_append, Option.mem_def, Option.or_eq_some_iff] at hc
    obtain hc | ⟨-, hc⟩ := hc
    · exact h.opens c hc
    · exact hwords.opens c hc
  closes := by
    intro c hc
    rw [List.head?_append, Option.mem_def, Option.or_eq_some_iff] at hc
    obtain hc | ⟨-, hc⟩ := hc
    · exact h.closes c hc
    · exact hwords.closes c hc
  front p hp := (showsNoToken_append_iff hp hwords.opens (hwords.front p hp)).mpr (h.front p hp)
  back p hp := (append_showsNoToken_iff hp hwords.closes (hwords.back p hp)).mpr (h.back p hp)

/-- A decidable condition for words to be a frame, on each half alone. -/
def isFrame (front back : List Char) : Bool :=
  front.getLast?.all (!isSecretChar ·) && back.head?.all (!isSecretChar ·) &&
    tokenPrefixes.all fun p => !occurs p.toList front && !occurs p.toList back

theorem frame_of_isFrame (h : isFrame front back = true) : Frame front back := by
  simp only [isFrame, Bool.and_eq_true, List.all_eq_true, Bool.not_eq_true', Option.all_eq_true] at h
  obtain ⟨⟨hopens, hcloses⟩, hwords⟩ := h
  exact ⟨hopens, hcloses, fun p hp => showsNoToken_of_occurs (hwords p hp).1,
    fun p hp => showsNoToken_of_occurs (hwords p hp).2⟩

section Words

variable {word : List Char} (hword : ∀ p ∈ tokenPrefixes, ShowsNoToken p.toList word)
include hword

/-- Words with a text in them that shows no token may stand before another. -/
theorem Frame.opening (h : Frame front back) (hlast : back.getLast?.any (!isSecretChar ·) = true) :
    Frame (front ++ word ++ back) [] where
  opens := by
    obtain ⟨c, hlast, hc⟩ := (Option.any_eq_true _ _).mp hlast
    intro d hd
    rw [List.getLast?_append, hlast, Option.some_or, Option.mem_some] at hd
    rw [← hd]
    simpa using hc
  closes := nofun
  front p hp := (h.showsNoToken_iff hp).mpr (hword p hp)
  back _ hp := showsNoToken_of_isNotation hp nofun

/-- Words with a text in them that shows no token may stand after another. -/
theorem Frame.closing (h : Frame front back) (hfirst : front.head?.any (!isSecretChar ·) = true) :
    Frame [] (front ++ word ++ back) where
  opens := nofun
  closes := by
    obtain ⟨c, hfirst, hc⟩ := (Option.any_eq_true _ _).mp hfirst
    intro d hd
    rw [List.append_assoc, List.head?_append, hfirst, Option.some_or, Option.mem_some] at hd
    rw [← hd]
    simpa using hc
  front _ hp := showsNoToken_of_isNotation hp nofun
  back p hp := (h.showsNoToken_iff hp).mpr (hword p hp)

end Words

/-- The halves of two frames are a frame. -/
theorem Frame.beside (hopening : Frame front []) (hclosing : Frame [] back) : Frame front back :=
  ⟨hopening.opens, hclosing.closes, hopening.front, hclosing.back⟩

end Frames

/-- A message quotes a text as it is, among at most so many characters of its own. -/
def Wraps (width : Nat) (said message : String) : Prop :=
  ∃ front back : String, message = front ++ said ++ back ∧ Frame front.toList back.toList ∧
    front.toList.length + back.toList.length ≤ width

section Wraps

variable {width inner outer : Nat} {said message : String}

theorem Wraps.of_isFrame {front back : String} (h : isFrame front.toList back.toList = true)
    (hwidth : front.toList.length + back.toList.length ≤ width) :
    Wraps width said (front ++ said ++ back) :=
  ⟨front, back, rfl, frame_of_isFrame h, hwidth⟩

/-- Nothing has to stand behind the text. -/
theorem Wraps.of_opening {front : String} (h : Frame front.toList [])
    (hwidth : front.toList.length ≤ width) : Wraps width said (front ++ said) :=
  ⟨front, "", String.append_empty.symm, h, hwidth⟩

/-- Nothing has to stand in front of the text. -/
theorem Wraps.of_closing {back : String} (h : Frame [] back.toList)
    (hwidth : back.toList.length ≤ width) : Wraps width said (said ++ back) := by
  refine ⟨"", back, by rw [String.empty_append], h, ?_⟩
  simpa using hwidth

theorem Wraps.mono (h : Wraps inner said message) (hle : inner ≤ outer) :
    Wraps outer said message := by
  obtain ⟨front, back, hmessage, hframe, hwidth⟩ := h
  exact ⟨front, back, hmessage, hframe, Nat.le_trans hwidth hle⟩

/-- What a message quotes, a message around it does. -/
theorem Wraps.trans {whole : String} (hinner : Wraps inner said message)
    (houter : Wraps outer message whole) : Wraps (inner + outer) said whole := by
  obtain ⟨front, back, rfl, hframe, hwidth⟩ := hinner
  obtain ⟨before, behind, rfl, hwords, hlength⟩ := houter
  refine ⟨before ++ front, back ++ behind, by simp [String.append_assoc], ?_, ?_⟩
  · rw [String.toList_append, String.toList_append]
    exact hframe.within hwords
  · simp only [String.toList_append, List.length_append]
    omega

/-- **A message shows a token exactly if the text that it quotes does.** -/
theorem Wraps.showsNoToken_iff (h : Wraps width said message) {p : String} (hp : p ∈ tokenPrefixes) :
    ShowsNoToken p.toList message.toList ↔ ShowsNoToken p.toList said.toList := by
  obtain ⟨front, back, rfl, hframe, -⟩ := h
  rw [String.toList_append, String.toList_append]
  exact hframe.showsNoToken_iff hp

theorem Wraps.length_le (h : Wraps width said message) :
    message.toList.length ≤ said.toList.length + width := by
  obtain ⟨front, back, rfl, -, hwidth⟩ := h
  simp only [String.toList_append, List.length_append]
  omega

theorem Wraps.infix (h : Wraps width said message) : said.toList <:+: message.toList := by
  obtain ⟨front, back, rfl, -, -⟩ := h
  exact ⟨front.toList, back.toList, by simp⟩

end Wraps

end ChainAgent.Text

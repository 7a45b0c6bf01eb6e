import ChainAgent.Proofs.Text.Redaction
import Mathlib.Data.List.TakeWhile

/-! Private keys in a redacted text.

The last pass scans a text from the left and continues after the digits of every `0x` that it finds.
The zero of another `0x` may be the last of these digits, so of a chain of them, each beginning in
the digits of the one before, every second is skipped (`links`). A skipped `0x` stays, and shows a
key if 64 digits follow it up to a character that is no digit or to a key that is found. This is the
only way in which a key is shown (`redact_showsKey_iff`). -/
namespace ChainAgent.Text

/-- Whether a text begins with a private key: `0x` and exactly 64 hex digits. -/
def beginsWithKey : List Char → Bool
  | '0' :: 'x' :: rest => (rest.takeWhile isHexDigit).length == keyDigits
  | _ => false

/-- A text that contains a private key. -/
def ShowsKey (cs : List Char) : Prop := ∃ front back, cs = front ++ back ∧ beginsWithKey back

/-- Hex digits and nothing else. -/
def AreDigits (cs : List Char) : Prop := ∀ c ∈ cs, isHexDigit c = true

/-- The chain of `0x` up to the end of a text, the text given in reverse. -/
def linksBack (reversed : List Char) : Nat :=
  match h : reversed.dropWhile isHexDigit with
  | 'x' :: '0' :: more => linksBack more + 1
  | _ => 0
  termination_by reversed.length
  decreasing_by
    have := (List.dropWhile_sublist isHexDigit (l := reversed)).length_le
    rw [h] at this
    simp only [List.length_cons] at this
    omega

/-- The length of the chain of `0x` up to the end of a text: only digits stand between one and the
next, and after the last. -/
def links (front : List Char) : Nat := linksBack front.reverse

/-- Whether the last pass finds a `0x` after a text. -/
def isRead (front : List Char) : Bool := links front % 2 == 0

/-- The leading digits of a text that are no part of a key. -/
def digitsBefore : List Char → List Char
  | [] => []
  | c :: rest =>
    if beginsWithKey (c :: rest) then []
    else if isHexDigit c then c :: digitsBefore rest else []

/-! ### Links -/

theorem AreDigits.takeWhile {digits : List Char} (h : AreDigits digits) {c : Char}
    (hc : isHexDigit c = false) (rest : List Char) :
    (digits ++ c :: rest).takeWhile isHexDigit = digits := by
  rw [List.takeWhile_append_of_pos h, List.takeWhile_cons_of_neg (by simp [hc]), List.append_nil]

theorem AreDigits.takeWhile_self {digits : List Char} (h : AreDigits digits) :
    digits.takeWhile isHexDigit = digits := by
  rw [List.takeWhile_eq_self_iff]
  exact h

theorem links_digit (front : List Char) {c : Char} (hc : isHexDigit c) :
    links (front ++ [c]) = links front := by
  have hreverse : (front ++ [c]).reverse = c :: front.reverse := by simp
  rw [links, links, hreverse, linksBack, linksBack, List.dropWhile_cons_of_pos hc]

theorem links_digits (front : List Char) {digits : List Char} (h : AreDigits digits) :
    links (front ++ digits) = links front := by
  induction digits generalizing front with
  | nil => rw [List.append_nil]
  | cons c digits ih =>
    have hsplit : front ++ c :: digits = front ++ [c] ++ digits := by simp
    rw [hsplit, ih _ fun d hd => h d (List.mem_cons_of_mem c hd),
      links_digit front (h c List.mem_cons_self)]

theorem links_link (front : List Char) : links (front ++ ['0', 'x']) = links front + 1 := by
  have hreverse : (front ++ ['0', 'x']).reverse = 'x' :: '0' :: front.reverse := by simp
  have hdrop : ('x' :: '0' :: front.reverse).dropWhile isHexDigit = 'x' :: '0' :: front.reverse :=
    List.dropWhile_cons_of_neg (by decide)
  rw [links, hreverse, linksBack]
  split
  · rename_i more h
    rw [hdrop] at h
    cases h
    rfl
  · rename_i h
    exact absurd hdrop (h _)

/-- A character that is no digit ends the chain, unless it is the second of a `0x`. -/
theorem links_break {front : List Char} {c : Char} (hc : isHexDigit c = false)
    (hlink : front.getLast? = some '0' → c ≠ 'x') : links (front ++ [c]) = 0 := by
  have hreverse : (front ++ [c]).reverse = c :: front.reverse := by simp
  have hdrop : (c :: front.reverse).dropWhile isHexDigit = c :: front.reverse :=
    List.dropWhile_cons_of_neg (by simp [hc])
  rw [links, hreverse, linksBack]
  split
  · rename_i more h
    rw [hdrop, List.cons.injEq] at h
    refine absurd h.1 (hlink ?_)
    rw [← List.head?_reverse, h.2]
    rfl
  · rfl

/-! ### Where a key is shown -/

theorem not_showsKey_nil : ¬ ShowsKey [] := by
  rintro ⟨front, back, hsplit, hkey⟩
  obtain ⟨rfl, rfl⟩ := List.append_eq_nil_iff.mp hsplit.symm
  cases hkey

theorem showsKey_cons {c : Char} {cs : List Char} :
    ShowsKey (c :: cs) ↔ beginsWithKey (c :: cs) ∨ ShowsKey cs := by
  constructor
  · rintro ⟨front, back, hsplit, hkey⟩
    cases front with
    | nil => exact .inl (hsplit ▸ hkey)
    | cons d front => exact .inr ⟨front, back, (List.cons.inj hsplit).2, hkey⟩
  · rintro (hkey | ⟨front, back, rfl, hkey⟩)
    · exact ⟨[], c :: cs, rfl, hkey⟩
    · exact ⟨c :: front, back, rfl, hkey⟩

theorem beginsWithKey_iff {c d : Char} {cs : List Char} : beginsWithKey (c :: d :: cs) ↔
    c = '0' ∧ d = 'x' ∧ (cs.takeWhile isHexDigit).length = keyDigits := by
  unfold beginsWithKey
  split
  · rename_i rest heq
    cases heq
    simp
  · rename_i hother
    refine iff_of_false (by decide) ?_
    rintro ⟨rfl, rfl, -⟩
    exact hother cs rfl

theorem not_beginsWithKey {c : Char} {cs : List Char} (h : c = '0' → cs.head? ≠ some 'x') :
    beginsWithKey (c :: cs) = false := by
  cases cs with
  | nil =>
    rw [← Bool.not_eq_true, beginsWithKey]
    · exact Bool.false_ne_true
    · rintro rest ⟨⟩
  | cons d cs =>
    rw [← Bool.not_eq_true, beginsWithKey_iff]
    rintro ⟨hc, hd, -⟩
    exact h hc (congrArg some hd)

/-- After digits a key may begin at the last of them. -/
theorem showsKey_digits {digits : List Char} (h : AreDigits digits) {c : Char}
    (hc : isHexDigit c = false) (ds : List Char) : ShowsKey (digits ++ c :: ds) ↔
      digits.getLast? = some '0' ∧ beginsWithKey ('0' :: c :: ds) ∨ ShowsKey ds := by
  induction digits with
  | nil =>
    have hfirst : beginsWithKey (c :: ds) = false := not_beginsWithKey fun hzero => by
      rw [hzero] at hc
      exact absurd hc (by decide)
    rw [List.nil_append, showsKey_cons, hfirst]
    simp
  | cons d digits ih =>
    rw [List.cons_append, showsKey_cons, ih fun e he => h e (List.mem_cons_of_mem d he)]
    cases digits with
    | nil =>
      rw [List.nil_append, List.getLast?_singleton, beginsWithKey_iff, beginsWithKey_iff]
      simp
    | cons e digits =>
      have hfirst : beginsWithKey (d :: (e :: digits ++ c :: ds)) = false :=
        not_beginsWithKey fun _ hx => by
          have he : isHexDigit 'x' := Option.some.inj hx ▸ h e (by simp)
          exact absurd he (by decide)
      rw [hfirst, List.getLast?_cons_cons]
      simp

theorem showsKey_redacted (ds : List Char) : ShowsKey (redacted ++ ds) ↔ ShowsKey ds := by
  have hword : redacted = ['[', 'R', 'E', 'D', 'A', 'C', 'T', 'E', 'D', ']'] := by decide
  rw [hword]
  simp [showsKey_cons, beginsWithKey]

/-! ### Where one `0x` runs into another -/

/-- A `0x` at the beginning of a text that is found, is no key itself and runs into one that is
skipped and keeps the digits of a key. -/
def OverrunsHere (front cs : List Char) : Prop :=
  ∃ digits rest, cs = '0' :: 'x' :: (digits ++ '0' :: 'x' :: rest) ∧ AreDigits digits ∧
    isRead front ∧ digits.length + 1 ≠ keyDigits ∧ (digitsBefore rest).length = keyDigits

/-- The same anywhere in a text after another. -/
def Overruns (front cs : List Char) : Prop :=
  ∃ before behind, cs = before ++ behind ∧ OverrunsHere (front ++ before) behind

theorem not_overruns_nil (front : List Char) : ¬ Overruns front [] := by
  rintro ⟨before, behind, hsplit, digits, rest, hbegins, -⟩
  rw [hbegins] at hsplit
  exact absurd hsplit (by simp)

theorem overruns_cons {front : List Char} {c : Char} {cs : List Char} :
    Overruns front (c :: cs) ↔ OverrunsHere front (c :: cs) ∨ Overruns (front ++ [c]) cs := by
  constructor
  · rintro ⟨before, behind, hsplit, hhere⟩
    cases before with
    | nil =>
      rw [List.append_nil] at hhere
      exact .inl (hsplit ▸ hhere)
    | cons d before =>
      obtain ⟨rfl, rfl⟩ := List.cons.inj hsplit
      exact .inr ⟨before, behind, rfl, by rwa [List.append_assoc]⟩
  · rintro (hhere | ⟨before, behind, rfl, hhere⟩)
    · exact ⟨[], c :: cs, rfl, by rwa [List.append_nil]⟩
    · exact ⟨c :: before, behind, rfl, by rwa [List.append_assoc] at hhere⟩

theorem not_overrunsHere {front : List Char} {c : Char} {cs : List Char}
    (h : c = '0' → cs.head? ≠ some 'x') : ¬ OverrunsHere front (c :: cs) := by
  rintro ⟨digits, rest, hbegins, -⟩
  obtain ⟨rfl, rfl⟩ := List.cons.inj hbegins
  exact h rfl rfl

/-- Among the digits of a `0x` that is found no other is. -/
theorem overruns_digits {front digits : List Char} (h : AreDigits digits) {c : Char}
    (hc : isHexDigit c = false) (hfront : isRead front = false) (cs : List Char) :
    Overruns front (digits ++ c :: cs) ↔ Overruns (front ++ digits ++ [c]) cs := by
  induction digits generalizing front with
  | nil =>
    rw [List.nil_append, overruns_cons, List.append_nil, or_iff_right]
    refine not_overrunsHere fun hzero => ?_
    rw [hzero] at hc
    exact absurd hc (by decide)
  | cons d digits ih =>
    have hd : isRead (front ++ [d]) = false := by rwa [isRead, links_digit front (h d (by simp))]
    have hhere : ¬ OverrunsHere front (d :: (digits ++ c :: cs)) := by
      rintro ⟨_, _, -, -, hread, -⟩
      rw [hfront] at hread
      cases hread
    rw [List.cons_append, overruns_cons, or_iff_right hhere,
      ih (fun e he => h e (List.mem_cons_of_mem d he)) hd, List.append_assoc front [d] digits]
    rfl

theorem overrunsHere_iff {front digits : List Char} (h : AreDigits digits) {c : Char}
    (hc : isHexDigit c = false) (hfront : isRead front) (cs : List Char) :
    OverrunsHere front ('0' :: 'x' :: (digits ++ c :: cs)) ↔
      digits.getLast? = some '0' ∧ c = 'x' ∧ digits.length ≠ keyDigits ∧
        (digitsBefore cs).length = keyDigits := by
  constructor
  · rintro ⟨begun, rest, hbegins, hbegun, -, hlength, hrest⟩
    simp only [List.cons.injEq, true_and] at hbegins
    have hsplit : digits ++ c :: cs = (begun ++ ['0']) ++ 'x' :: rest := by simp [hbegins]
    have hzero : AreDigits (begun ++ ['0']) := by
      intro d hd
      obtain hd | hd := List.mem_append.mp hd
      · exact hbegun d hd
      · rw [List.mem_singleton.mp hd]
        decide
    have hdigits : digits = begun ++ ['0'] := by
      rw [← h.takeWhile hc cs, hsplit, hzero.takeWhile (by decide) rest]
    rw [hdigits] at hsplit ⊢
    obtain ⟨rfl, rfl⟩ := List.cons.inj (List.append_cancel_left hsplit)
    exact ⟨List.getLast?_concat, rfl, by simpa using hlength, hrest⟩
  · rintro ⟨hlast, rfl, hlength, hrest⟩
    obtain ⟨begun, rfl⟩ := List.getLast?_eq_some_iff.mp hlast
    refine ⟨begun, cs, by simp, fun d hd => h d (List.mem_append_left _ hd), hfront, ?_, hrest⟩
    simpa using hlength

/-! ### The last pass -/

/-- The replacement of a `0x` and its digits. -/
def keyRedacted (digits : List Char) : List Char :=
  if digits.length == keyDigits then redacted else '0' :: 'x' :: digits

/-- The effect of the last pass on a text. -/
inductive KeySweep : List Char → List Char → Prop
  | nil : KeySweep [] []
  | other {c : Char} {cs ds : List Char} : (c = '0' → cs.head? ≠ some 'x') →
    KeySweep cs ds → KeySweep (c :: cs) (c :: ds)
  | final {digits : List Char} : AreDigits digits →
    KeySweep ('0' :: 'x' :: digits) (keyRedacted digits)
  | found {digits cs ds : List Char} {c : Char} : AreDigits digits → isHexDigit c = false →
    KeySweep cs ds →
    KeySweep ('0' :: 'x' :: (digits ++ c :: cs)) (keyRedacted digits ++ c :: ds)

theorem head?_keyRedacted (digits rest : List Char) :
    (keyRedacted digits ++ rest).head? ≠ some 'x' := by
  rw [keyRedacted]
  cases digits.length == keyDigits
  · exact fun h => absurd (Option.some.inj h) (by decide)
  · exact fun h => absurd (Option.some.inj h) (by decide)

/-- The last pass moves no `x` to the front of a text. -/
theorem KeySweep.head?_ne {cs ds : List Char} (h : KeySweep cs ds) (hcs : cs.head? ≠ some 'x') :
    ds.head? ≠ some 'x' := by
  cases h with
  | nil => exact hcs
  | other => exact hcs
  | final => exact List.append_nil (keyRedacted _) ▸ head?_keyRedacted _ []
  | found => exact head?_keyRedacted _ _

/-- The last pass scans the text from the left. -/
theorem keySweep_redactKeys (cs : List Char) : KeySweep cs (redactKeys cs) := by
  fun_induction redactKeys cs with
  | case1 => exact .nil
  | case2 rest digits head ih =>
    have hdigits : AreDigits digits := List.all_eq_true.mp List.all_takeWhile
    have hsplit : digits ++ rest.drop digits.length = rest :=
      List.prefix_iff_eq_append.mp (List.takeWhile_prefix _)
    have hbehind : rest.drop digits.length = rest.dropWhile isHexDigit :=
      drop_length_takeWhile isHexDigit rest
    have hends := List.head?_dropWhile_not isHexDigit rest
    rw [← hbehind] at hends
    show KeySweep _ (keyRedacted digits ++ _)
    generalize redactKeys (rest.drop digits.length) = result at ih ⊢
    generalize rest.drop digits.length = behind at ih hsplit hends
    rw [← hsplit]
    clear_value digits
    cases ih with
    | nil =>
      rw [List.append_nil, List.append_nil]
      exact .final hdigits
    | other _ hrest => exact .found hdigits (by simpa using hends) hrest
    | final => cases hends
    | found => cases hends
  | case3 c rest hother ih =>
    refine .other (fun hzero hx => ?_) ih
    obtain ⟨behind, rfl⟩ := List.head?_eq_some_iff.mp hx
    exact hother behind hzero rfl

/-- The result of the last pass begins with the digits before its first key. -/
theorem KeySweep.digitsBefore {cs ds : List Char} (h : KeySweep cs ds) :
    ds.takeWhile isHexDigit = Text.digitsBefore cs := by
  have hfound {digits cs ds : List Char} (hcs : cs.takeWhile isHexDigit = digits) :
      (keyRedacted digits ++ ds).takeWhile isHexDigit = Text.digitsBefore ('0' :: 'x' :: cs) := by
    have hkey : beginsWithKey ('0' :: 'x' :: cs) = (digits.length == keyDigits) := by
      rw [beginsWithKey, hcs]
    have hx : Text.digitsBefore ('x' :: cs) = [] := by
      rw [Text.digitsBefore, not_beginsWithKey fun h => absurd h (by decide)]
      rfl
    rw [Text.digitsBefore, hkey, hx, keyRedacted]
    cases digits.length == keyDigits <;> rfl
  induction h with
  | nil => rfl
  | @other c cs ds hother hrest ih =>
    rw [Text.digitsBefore, not_beginsWithKey hother, List.takeWhile_cons, ih]
    rfl
  | @final digits hdigits =>
    have hends := @hfound digits digits [] hdigits.takeWhile_self
    rwa [List.append_nil] at hends
  | found hdigits hc _ _ => exact hfound (hdigits.takeWhile hc _)

theorem x_mem_of_showsKey {cs : List Char} (h : ShowsKey cs) : 'x' ∈ cs := by
  obtain ⟨front, back, rfl, hkey⟩ := h
  unfold beginsWithKey at hkey
  split at hkey
  · simp
  · cases hkey

theorem x_mem_of_overrunsHere {front cs : List Char} (h : OverrunsHere front ('0' :: 'x' :: cs)) :
    'x' ∈ cs := by
  obtain ⟨digits, rest, hbegins, -⟩ := h
  simp only [List.cons.injEq, true_and] at hbegins
  simp [hbegins]

theorem x_mem_of_overruns {front cs : List Char} (h : Overruns front cs) : 'x' ∈ cs := by
  obtain ⟨before, behind, rfl, digits, rest, rfl, -⟩ := h
  simp

theorem AreDigits.x_not_mem {digits : List Char} (h : AreDigits digits) : 'x' ∉ digits :=
  fun hx => absurd (h 'x' hx) (by decide)

theorem not_showsKey_final {digits : List Char} (h : AreDigits digits) :
    ¬ ShowsKey (keyRedacted digits) := by
  rw [keyRedacted]
  split
  · exact fun hshown => absurd (x_mem_of_showsKey hshown) (by decide)
  · rename_i hlength
    rw [showsKey_cons, showsKey_cons, beginsWithKey, h.takeWhile_self,
      not_beginsWithKey fun h => absurd h (by decide)]
    rintro (hkey | hkey | hkey)
    · exact hlength hkey
    · cases hkey
    · exact h.x_not_mem (x_mem_of_showsKey hkey)

/-- The keys shown after a `0x` that is found. -/
theorem showsKey_found {digits : List Char} (h : AreDigits digits) {c : Char}
    (hc : isHexDigit c = false) (ds : List Char) : ShowsKey (keyRedacted digits ++ c :: ds) ↔
      digits.getLast? = some '0' ∧ c = 'x' ∧ digits.length ≠ keyDigits ∧
        (ds.takeWhile isHexDigit).length = keyDigits ∨ ShowsKey ds := by
  by_cases hlength : digits.length = keyDigits
  · have hfirst : beginsWithKey (c :: ds) = false := not_beginsWithKey fun hzero => by
      rw [hzero] at hc
      exact absurd hc (by decide)
    rw [keyRedacted, if_pos (by simpa using hlength), showsKey_redacted, showsKey_cons, hfirst]
    simp [hlength]
  · have hkey : beginsWithKey ('0' :: 'x' :: (digits ++ c :: ds)) = false := by
      rw [beginsWithKey, h.takeWhile hc]
      simpa using hlength
    rw [keyRedacted, if_neg (by simpa using hlength), List.cons_append, List.cons_append,
      showsKey_cons, showsKey_cons, hkey, not_beginsWithKey fun h => absurd h (by decide),
      showsKey_digits h hc, beginsWithKey_iff]
    simp [hlength]

/-- After a `0x` that is found, its digits and one more character, the next one is found again. -/
theorem isRead_found {front digits : List Char} (hread : isRead front) (h : AreDigits digits)
    {c : Char} (hc : isHexDigit c = false) : isRead (front ++ ['0', 'x'] ++ digits ++ [c]) := by
  by_cases hlink : digits.getLast? = some '0' ∧ c = 'x'
  · obtain ⟨hlast, rfl⟩ := hlink
    obtain ⟨begun, rfl⟩ := List.getLast?_eq_some_iff.mp hlast
    have hsplit : front ++ ['0', 'x'] ++ (begun ++ ['0']) ++ ['x'] =
        front ++ ['0', 'x'] ++ begun ++ ['0', 'x'] := by simp
    rw [isRead, beq_iff_eq] at hread ⊢
    rw [hsplit, links_link, links_digits _ fun d hd => h d (List.mem_append_left _ hd), links_link]
    omega
  · rw [isRead, links_break hc]
    · rfl
    · intro hlast hx
      cases digits with
      | nil => simp at hlast
      | cons d digits =>
        rw [List.getLast?_append, List.getLast?_cons, Option.some_or] at hlast
        exact hlink ⟨List.getLast?_cons.trans hlast, hx⟩

/-- **A key is shown exactly where one `0x` runs into another that keeps the digits of a key.** -/
theorem KeySweep.showsKey_iff {cs ds front : List Char} (h : KeySweep cs ds)
    (hread : isRead front) (hlink : front.getLast? = some '0' → cs.head? ≠ some 'x') :
    ShowsKey ds ↔ Overruns front cs := by
  induction h generalizing front with
  | nil => exact iff_of_false not_showsKey_nil (not_overruns_nil front)
  | @other c cs ds hother hrest ih =>
    have hhead : c = '0' → ds.head? ≠ some 'x' := fun hzero => hrest.head?_ne (hother hzero)
    have hnext : isRead (front ++ [c]) := by
      by_cases hc : isHexDigit c
      · rwa [isRead, links_digit front hc]
      · have hc : isHexDigit c = false := by simpa using hc
        rw [isRead, links_break hc fun hzero hx => hlink hzero (congrArg some hx)]
        rfl
    have hlast : (front ++ [c]).getLast? = some '0' → cs.head? ≠ some 'x' := fun hzero =>
      hother (by simpa using hzero)
    rw [showsKey_cons, overruns_cons, not_beginsWithKey hhead,
      or_iff_right (not_overrunsHere hother), or_iff_right Bool.false_ne_true, ih hnext hlast]
  | @final digits hdigits =>
    refine iff_of_false (not_showsKey_final hdigits) ?_
    rw [overruns_cons, overruns_cons]
    rintro (hhere | hhere | hlater)
    · exact hdigits.x_not_mem (x_mem_of_overrunsHere hhere)
    · exact not_overrunsHere (fun h => absurd h (by decide)) hhere
    · exact hdigits.x_not_mem (x_mem_of_overruns hlater)
  | @found digits cs ds c hdigits hc hrest ih =>
    have hpassed : isRead (front ++ ['0', 'x']) = false := by
      rw [isRead, beq_iff_eq] at hread
      rw [isRead, links_link, beq_eq_false_iff_ne]
      omega
    have hlast : (front ++ ['0', 'x'] ++ digits ++ [c]).getLast? = some '0' →
        cs.head? ≠ some 'x' := by
      rw [List.getLast?_concat, Option.some.injEq]
      intro hzero
      rw [hzero] at hc
      exact absurd hc (by decide)
    have hx : ¬ OverrunsHere (front ++ ['0']) ('x' :: (digits ++ c :: cs)) :=
      not_overrunsHere fun h => absurd h (by decide)
    rw [showsKey_found hdigits hc, hrest.digitsBefore, ih (isRead_found hread hdigits hc) hlast,
      overruns_cons, overruns_cons, or_iff_right hx, overrunsHere_iff hdigits hc hread,
      List.append_assoc front ['0'] ['x'], List.singleton_append,
      overruns_digits hdigits hc hpassed]

/-! ### Redacted texts -/

/-- The input of the last pass: the result of the passes for the signs. -/
def withoutSigned (cs : List Char) : List Char := signs.foldl (fun text g => redactSign g text) cs

/-- The passes for signs do not create new substrings without a bracket. -/
theorem infix_of_foldl {gs : List Sign} (hsound : ∀ g ∈ gs, g.IsSound) {part cs : List Char}
    (hpart : IsForeign part) (h : part <:+: gs.foldl (fun text g => redactSign g text) cs) :
    part <:+: cs := by
  induction gs generalizing cs with
  | nil => exact h
  | cons g gs ih =>
    have hfirst := ih (fun g hg => hsound g (List.mem_cons_of_mem _ hg)) h
    have hsweep := sweep_redactSign (hsound g List.mem_cons_self).label_ne cs
    exact hsweep.covered.infix_of hpart hfirst

theorem ShowsKey.zero_x {cs : List Char} (h : ShowsKey cs) : ['0', 'x'] <:+: cs := by
  obtain ⟨front, back, rfl, hkey⟩ := h
  unfold beginsWithKey at hkey
  split at hkey
  · rename_i rest
    exact ⟨front, rest, by simp⟩
  · cases hkey

theorem Overruns.zero_x {front cs : List Char} (h : Overruns front cs) : ['0', 'x'] <:+: cs := by
  obtain ⟨before, behind, rfl, digits, rest, rfl, -⟩ := h
  exact ⟨before, digits ++ '0' :: 'x' :: rest, by simp⟩

theorem redact_showsKey (s : String) :
    ShowsKey (redact s).toList ↔ Overruns [] (withoutSigned s.toList) := by
  unfold redact
  split
  · rw [String.toList_ofList]
    have hread : isRead [] := by decide +kernel
    have hsweep := keySweep_redactKeys (withoutSigned s.toList)
    exact hsweep.showsKey_iff hread fun hlast => by cases hlast
  · rename_i hnone
    -- A text that is not suspicious has no `0x`, and the passes bring none forward.
    have hzero : ¬ ['0', 'x'] <:+: s.toList := by
      rw [← occurs_iff]
      intro hoccurs
      exact hnone (by rw [isSuspicious, hoccurs, Bool.or_true])
    refine iff_of_false (fun h => hzero h.zero_x) fun h => hzero ?_
    exact infix_of_foldl signs_sound (by decide) h.zero_x

/-- **A redacted text shows a private key exactly where one `0x` runs into another that keeps the
digits of a key.** -/
theorem redact_showsKey_iff (s : String) : ShowsKey (redact s).toList ↔
    ∃ before digits rest,
      withoutSigned s.toList = before ++ '0' :: 'x' :: (digits ++ '0' :: 'x' :: rest) ∧
        AreDigits digits ∧ isRead before ∧ digits.length + 1 ≠ keyDigits ∧
          (digitsBefore rest).length = keyDigits := by
  rw [redact_showsKey]
  constructor
  · rintro ⟨before, behind, hsplit, digits, rest, rfl, hdigits⟩
    exact ⟨before, digits, rest, hsplit, hdigits⟩
  · rintro ⟨before, digits, rest, hsplit, hdigits⟩
    exact ⟨before, _, hsplit, digits, rest, rfl, hdigits⟩

/-- A key after a lone `0x` stays. -/
theorem redact_showsKey_overrun :
    ShowsKey (redact ("0x0x" ++ String.ofList (List.replicate keyDigits 'a'))).toList := by
  rw [redact_showsKey_iff]
  refine ⟨[], [], List.replicate keyDigits 'a', ?_, ?_⟩
  · decide +kernel
  · exact ⟨by simp [AreDigits], by decide +kernel, by decide, by decide +kernel⟩

end ChainAgent.Text

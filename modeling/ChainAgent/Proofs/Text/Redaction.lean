import ChainAgent.Text.Redaction
import Mathlib.Data.List.Induction

/-! What redaction removes from a text.

A pass replaces substrings of a text and keeps everything else (`Covered`), so it creates no new
sign: a sign has no bracket in it, and `[REDACTED]` is in brackets (`Covered.infix_of`). Each pass
replaces every secret after its own sign (`Sweep.clears`), and no later pass uncovers one, so in the
end there is none after any sign (`redact_clears`). -/
namespace ChainAgent.Text

/-- A text with some substrings replaced. -/
inductive Covered : List Char → List Char → Prop
  | nil : Covered [] []
  | kept {cs ds : List Char} (c : Char) : Covered cs ds → Covered (c :: cs) (c :: ds)
  | hidden {cs ds : List Char} (stretch : List Char) : Covered cs ds →
    Covered (stretch ++ cs) (redacted ++ ds)

/-- A substring that shares no character with `[REDACTED]`. -/
structure IsForeign (part : List Char) : Prop where
  opening : '[' ∉ part
  closing : ']' ∉ part
  letter : ∃ c ∈ part, c ∉ redacted

instance (part : List Char) : Decidable (IsForeign part) :=
  decidable_of_iff ('[' ∉ part ∧ ']' ∉ part ∧ part.any (fun c => decide (c ∉ redacted)) = true)
    ⟨fun ⟨opening, closing, letter⟩ => ⟨opening, closing, by simpa using letter⟩,
      fun h => ⟨h.opening, h.closing, by simpa using h.letter⟩⟩

/-- A text without a secret after a label. -/
def IsClearOf (label cs : List Char) : Prop := ∀ c, isSecretChar c = true → ¬ label ++ [c] <:+: cs

/-- A text that does not begin with a secret character. -/
def EndsRun (cs : List Char) : Prop := ∀ c ∈ cs.head?, isSecretChar c = false

/-! ### Covered texts -/

theorem IsClearOf.mono {label cs ds : List Char} (h : IsClearOf label cs) (hpart : ds <:+: cs) :
    IsClearOf label ds :=
  fun c hc hshown => h c hc (hshown.trans hpart)

theorem IsForeign.concat {label : List Char} (h : IsForeign label) {c : Char}
    (hc : isSecretChar c = true) : IsForeign (label ++ [c]) where
  opening := by
    rw [List.mem_append, List.mem_singleton]
    rintro (hmem | rfl)
    · exact h.opening hmem
    · exact absurd hc (by decide)
  closing := by
    rw [List.mem_append, List.mem_singleton]
    rintro (hmem | rfl)
    · exact h.closing hmem
    · exact absurd hc (by decide)
  letter := by
    obtain ⟨d, hd, hout⟩ := h.letter
    exact ⟨d, List.mem_append_left _ hd, hout⟩

/-- A substring without a character stands on one side of it. -/
theorem infix_beside {part front back : List Char} {c : Char} (hc : c ∉ part)
    (h : part <:+: front ++ c :: back) : part <:+: front ∨ part <:+: back := by
  obtain hfront | hback | ⟨left, right, rfl, hleft, hright⟩ := List.infix_append_iff.mp h
  · exact .inl hfront
  · obtain hfirst | hback := List.infix_cons_iff.mp hback
    · obtain rfl | ⟨rest, rfl, -⟩ := List.prefix_cons_iff.mp hfirst
      · exact .inl List.nil_infix
      · exact absurd List.mem_cons_self hc
    · exact .inr hback
  · obtain rfl | ⟨rest, rfl, -⟩ := List.prefix_cons_iff.mp hright
    · exact .inl (by simpa using hleft.isInfix)
    · exact absurd (List.mem_append_right _ List.mem_cons_self) hc

/-- A substring that shares no character with `[REDACTED]` stands on one side of it. -/
theorem IsForeign.beside {part front back : List Char} (h : IsForeign part)
    (hpart : part <:+: front ++ (redacted ++ back)) : part <:+: front ∨ part <:+: back := by
  obtain hfront | hrest := infix_beside h.opening hpart
  · exact .inl hfront
  · have hrest : part <:+: "REDACTED".toList ++ ']' :: back := hrest
    obtain hinside | hback := infix_beside h.closing hrest
    · obtain ⟨c, hc, hout⟩ := h.letter
      have hword : "REDACTED".toList ⊆ redacted := by decide
      exact absurd (hword (hinside.subset hc)) hout
    · exact .inr hback

namespace Covered

variable {cs ds : List Char}

theorem append (front : List Char) (h : Covered cs ds) : Covered (front ++ cs) (front ++ ds) := by
  induction front with
  | nil => exact h
  | cons c front ih => exact .kept c ih

/-- The result begins as the text does, up to the first replacement. -/
theorem prefix_of {part : List Char} (h : Covered cs ds) (hpart : '[' ∉ part)
    (hbegins : part <+: ds) : part <+: cs := by
  induction h generalizing part with
  | nil => exact hbegins
  | kept c _ ih =>
    obtain rfl | ⟨rest, rfl, hrest⟩ := List.prefix_cons_iff.mp hbegins
    · exact List.nil_prefix
    · exact List.cons_prefix_cons.mpr ⟨rfl, ih (List.not_mem_of_not_mem_cons hpart) hrest⟩
  | hidden stretch _ _ =>
    cases part with
    | nil => exact List.nil_prefix
    | cons c part =>
      have hfirst : c = '[' := (List.cons_prefix_cons.mp hbegins).1
      exact absurd (by simp [hfirst]) hpart

/-- **Replacing creates no new substring.** -/
theorem infix_of {part : List Char} (h : Covered cs ds) (hpart : IsForeign part)
    (hwithin : part <:+: ds) : part <:+: cs := by
  induction h with
  | nil => exact hwithin
  | kept c hrest ih =>
    obtain hfirst | hlater := List.infix_cons_iff.mp hwithin
    · exact ((hrest.kept c).prefix_of hpart.opening hfirst).isInfix
    · exact List.infix_cons (ih hlater)
  | @hidden cs ds stretch _ ih =>
    have hwithin : part <:+: [] ++ (redacted ++ ds) := hwithin
    obtain hnone | hlater := hpart.beside hwithin
    · obtain ⟨c, hc, -⟩ := hpart.letter
      exact absurd (hnone.subset hc) List.not_mem_nil
    · exact (ih hlater).trans (List.suffix_append stretch _).isInfix

theorem isClearOf {label : List Char} (h : Covered cs ds) (hlabel : IsForeign label)
    (hclear : IsClearOf label cs) : IsClearOf label ds := fun c hc hshown =>
  hclear c hc (h.infix_of (hlabel.concat hc) hshown)

/-- If a text does not begin with a secret character, the result does not either. -/
theorem endsRun (h : Covered cs ds) (hends : EndsRun cs) : EndsRun ds := by
  intro c hc
  by_cases hbracket : c = '['
  · rw [hbracket]
    decide
  · obtain ⟨rest, rfl⟩ : ∃ rest, ds = c :: rest := by
      cases ds with
      | nil => cases hc
      | cons d rest =>
        cases hc
        exact ⟨rest, rfl⟩
    have hletter : '[' ∉ [c] := by simpa using Ne.symm hbracket
    obtain ⟨rest', rfl⟩ := h.prefix_of hletter (List.prefix_append [c] rest)
    exact hends c rfl

end Covered

/-! ### One pass -/

/-- The effect of a pass for a sign on a text. -/
inductive Sweep (g : Sign) : List Char → List Char → Prop
  | nil : Sweep g [] []
  | other {c : Char} {cs ds : List Char} : ¬ g.label <+: c :: cs → Sweep g cs ds →
    Sweep g (c :: cs) (c :: ds)
  | bare {rest ds : List Char} : EndsRun rest → Sweep g rest ds →
    Sweep g (g.label ++ rest) (g.label ++ ds)
  | secret {run rest ds : List Char} : Sweep g rest ds →
    Sweep g (g.label ++ (run ++ rest)) ((if g.kept then g.label else []) ++ (redacted ++ ds))

/-- Dropping the longest run at the front leaves the rest. -/
theorem drop_length_takeWhile (p : Char → Bool) (cs : List Char) :
    cs.drop (cs.takeWhile p).length = cs.dropWhile p := by
  have hsplit : cs.takeWhile p ++ cs.drop (cs.takeWhile p).length = cs :=
    List.prefix_iff_eq_append.mp (List.takeWhile_prefix p)
  exact List.append_cancel_left (hsplit.trans List.takeWhile_append_dropWhile.symm)

theorem endsRun_dropWhile (cs : List Char) : EndsRun (cs.dropWhile isSecretChar) := by
  intro c hc
  rw [Option.mem_def] at hc
  have hhead := List.head?_dropWhile_not isSecretChar cs
  rw [hc] at hhead
  simpa using hhead

/-- A pass scans the text from the left. -/
theorem sweep_redactSign {g : Sign} (hlabel : g.label ≠ []) (cs : List Char) :
    Sweep g cs (redactSign g cs) := by
  fun_induction redactSign g cs with
  | case1 => exact .nil
  | case2 c rest h after run head ih =>
    obtain ⟨behind, hsplit⟩ := List.isPrefixOf_iff_prefix.mp h.1
    have hafter : after = behind := by
      show (c :: rest).drop g.label.length = behind
      rw [← hsplit, List.drop_left]
    have hruns : run ++ after.drop run.length = behind := by
      rw [← hafter]
      exact List.prefix_iff_eq_append.mp (List.takeWhile_prefix _)
    have hends : EndsRun (after.drop run.length) := by
      rw [drop_length_takeWhile]
      exact endsRun_dropWhile after
    rw [← hsplit, ← hruns]
    clear_value run
    by_cases hrun : run = []
    · have hhead : head = g.label := if_pos (by rw [hrun]; rfl)
      rw [hhead]
      rw [hrun] at hends ih ⊢
      exact .bare hends ih
    · have hhead : head = (if g.kept then g.label else []) ++ redacted := by
        have hsome : run.isEmpty = false := by simpa using hrun
        show (if run.isEmpty then g.label else _) = _
        rw [hsome]
        cases g.kept <;> rfl
      rw [hhead, List.append_assoc]
      exact .secret ih
  | case3 c rest h ih =>
    exact .other (fun hbegins => h ⟨List.isPrefixOf_iff_prefix.mpr hbegins, hlabel⟩) ih

/-- A sign that each pass finds wherever it stands: it shares no character with `[REDACTED]`, and
what begins inside it continues with a secret. -/
structure Sign.IsSound (g : Sign) : Prop where
  foreign : IsForeign g.label
  goes_on : ∀ k (hk : k < g.label.length), k ≠ 0 → g.label.take k <:+ g.label →
    isSecretChar g.label[k] = true

instance (g : Sign) : Decidable g.IsSound :=
  decidable_of_iff (IsForeign g.label ∧ ∀ k (hk : k < g.label.length), k ≠ 0 →
      g.label.take k <:+ g.label → isSecretChar g.label[k] = true)
    ⟨fun ⟨foreign, goes_on⟩ => ⟨foreign, goes_on⟩, fun h => ⟨h.foreign, h.goes_on⟩⟩

theorem Sign.IsSound.label_ne {g : Sign} (h : g.IsSound) : g.label ≠ [] := by
  obtain ⟨c, hc, -⟩ := h.foreign.letter
  exact List.ne_nil_of_mem hc

theorem Sweep.covered {g : Sign} {cs ds : List Char} (h : Sweep g cs ds) : Covered cs ds := by
  induction h with
  | nil => exact .nil
  | other _ _ ih => exact ih.kept _
  | bare _ _ ih => exact ih.append _
  | @secret run rest ds _ ih =>
    by_cases hkept : g.kept
    · rw [if_pos hkept]
      exact (ih.hidden run).append _
    · rw [if_neg hkept, ← List.append_assoc]
      exact ih.hidden (g.label ++ run)

/-- A bare label is followed by no secret, its own characters included. -/
theorem Sign.IsSound.bare {g : Sign} (h : g.IsSound) {ds : List Char} (hends : EndsRun ds)
    (hclear : IsClearOf g.label ds) : IsClearOf g.label (g.label ++ ds) := by
  intro c hc hshown
  rw [List.infix_append_iff] at hshown
  obtain hin | hlater | ⟨left, right, hsplit, hleft, hright⟩ := hshown
  · have hlength := hin.length_le
    rw [List.length_append, List.length_singleton] at hlength
    omega
  · exact hclear c hc hlater
  · cases right with
    | nil =>
      have hlength := hleft.length_le
      rw [List.append_nil] at hsplit
      rw [← hsplit, List.length_append, List.length_singleton] at hlength
      omega
    | cons d right =>
      have hd : isSecretChar d = false := by
        obtain ⟨rest, hrest⟩ := hright
        exact hends d (by rw [← hrest]; rfl)
      obtain ⟨more, -, hlast⟩ | ⟨more, hlabel, hlast⟩ := List.append_eq_append_iff.mp hsplit
      · have hsame : c = d := by
          cases more with
          | nil => exact (List.cons.inj hlast).1
          | cons e more => simp at hlast
        exact absurd hc (by simp [hsame, hd])
      · cases more with
        | nil =>
          have hsame : d = c := (List.cons.inj hlast).1
          exact absurd hc (by simp [← hsame, hd])
        | cons e more =>
          obtain rfl : d = e := (List.cons.inj hlast).1
          cases left with
          | nil => exact hclear c hc (hsplit ▸ hright.isInfix)
          | cons first left =>
            -- The label begins once more inside itself, so its own character is the secret.
            have hsecret := h.goes_on (first :: left).length (by simp [hlabel]) (by simp)
              (by rwa [hlabel, List.take_left, ← hlabel])
            simp [hlabel, hd] at hsecret

/-- **A pass leaves no secret after its sign.** -/
theorem Sweep.clears {g : Sign} (hg : g.IsSound) {cs ds : List Char} (h : Sweep g cs ds) :
    IsClearOf g.label ds := by
  induction h with
  | nil =>
    intro c _ hshown
    exact absurd (List.eq_nil_of_infix_nil hshown) (by simp)
  | other hother hrest ih =>
    intro c hc hshown
    obtain hfirst | hlater := List.infix_cons_iff.mp hshown
    · have hlabel := (List.prefix_append g.label [c]).trans hfirst
      exact hother ((hrest.covered.kept _).prefix_of hg.foreign.opening hlabel)
    · exact ih c hc hlater
  | bare hends hrest ih => exact hg.bare (hrest.covered.endsRun hends) ih
  | secret _ ih =>
    intro c hc hshown
    obtain hfront | hlater := (hg.foreign.concat hc).beside hshown
    · have hlength := hfront.length_le
      rw [List.length_append, List.length_singleton] at hlength
      split at hlength
      · omega
      · simp at hlength
    · exact ih c hc hlater

/-! ### All passes -/

theorem redactKeys_covered (cs : List Char) : Covered cs (redactKeys cs) := by
  fun_induction redactKeys cs with
  | case1 => exact .nil
  | case2 rest digits head ih =>
    have hrest : digits ++ rest.drop digits.length = rest :=
      List.prefix_iff_eq_append.mp (List.takeWhile_prefix _)
    have hsplit : '0' :: 'x' :: rest = ('0' :: 'x' :: digits) ++ rest.drop digits.length := by
      rw [List.cons_append, List.cons_append, hrest]
    rw [hsplit]
    by_cases hkey : digits.length == keyDigits
    · have hhead : head = redacted := if_pos hkey
      rw [hhead]
      exact ih.hidden _
    · have hhead : head = '0' :: 'x' :: digits := if_neg hkey
      rw [hhead]
      exact ih.append _
  | case3 c rest _ ih => exact ih.kept c

/-- Every sign is sound. -/
theorem signs_sound : ∀ g ∈ signs, g.IsSound := by decide

/-- Passes for sound signs leave no secret after any of them. -/
theorem foldl_isClearOf {gs : List Sign} (hsound : ∀ g ∈ gs, g.IsSound) (cs : List Char) {g : Sign}
    (hg : g ∈ gs) : IsClearOf g.label (gs.foldl (fun text g => redactSign g text) cs) := by
  induction gs using List.reverseRecOn with
  | nil => cases hg
  | append_singleton front last ih =>
    have hlast : last.IsSound := hsound last (by simp)
    rw [List.foldl_append]
    have hsweep := sweep_redactSign hlast.label_ne (front.foldl (fun text g => redactSign g text) cs)
    obtain hfront | hg := List.mem_append.mp hg
    · have hbefore := ih (fun g hg => hsound g (List.mem_append_left _ hg)) hfront
      exact hsweep.covered.isClearOf (hsound g (List.mem_append_left _ hfront)).foreign hbefore
    · rw [List.mem_singleton] at hg
      rw [hg]
      exact hsweep.clears hlast

theorem redactChars_isClearOf (cs : List Char) {g : Sign} (hg : g ∈ signs) :
    IsClearOf g.label (redactChars cs) :=
  (redactKeys_covered _).isClearOf (signs_sound g hg).foreign (foldl_isClearOf signs_sound cs hg)

theorem occurs_iff {part cs : List Char} : occurs part cs = true ↔ part <:+: cs := by
  induction cs with
  | nil => simp [occurs]
  | cons c rest ih => rw [occurs, Bool.or_eq_true, ih, List.isPrefixOf_iff_prefix, List.infix_cons_iff]

theorem redact_isClearOf (s : String) {g : Sign} (hg : g ∈ signs) :
    IsClearOf g.label (redact s).toList := by
  unfold redact
  split
  · rw [String.toList_ofList]
    exact redactChars_isClearOf s.toList hg
  · rename_i hnone
    -- A text that is not suspicious does not even show the sign.
    intro c _ hshown
    have hlabel : occurs g.label s.toList = true :=
      occurs_iff.mpr ((List.prefix_append g.label [c]).isInfix.trans hshown)
    refine hnone ?_
    rw [isSuspicious, Bool.or_eq_true, List.any_eq_true]
    exact .inl ⟨g, hg, hlabel⟩

theorem exists_sign {p : String} (hp : p ∈ tokenPrefixes ++ valueMarkers) :
    ∃ g ∈ signs, g.label = p.toList := by
  obtain hbegins | hmarker := List.mem_append.mp hp
  · exact ⟨_, List.mem_append_left _ (List.mem_map_of_mem hbegins), rfl⟩
  · exact ⟨_, List.mem_append_right _ (List.mem_map_of_mem hmarker), rfl⟩

/-- **After a vendor's prefix or a marker in a redacted text there is no secret character.** -/
theorem redact_clears (s : String) {p : String} (hp : p ∈ tokenPrefixes ++ valueMarkers)
    {front back : List Char} (hsplit : (redact s).toList = front ++ p.toList ++ back) :
    back = [] ∨ ∃ c rest, back = c :: rest ∧ isSecretChar c = false := by
  obtain ⟨g, hg, hlabel⟩ := exists_sign hp
  have hclear := redact_isClearOf s hg
  rw [hlabel, hsplit] at hclear
  cases back with
  | nil => exact .inl rfl
  | cons c rest =>
    refine .inr ⟨c, rest, rfl, ?_⟩
    rw [← Bool.not_eq_true]
    intro hc
    exact hclear c hc ⟨front, rest, by simp⟩

/-- A marker that begins inside another: its quote is the end of the one and the beginning of the
other. -/
theorem redact_clears_token :
    ∃ front back : List Char,
      (redact "sk-1: \"token\":\"token\":\"x\"").toList = front ++ "\"token\":\"".toList ++ back ∧
        ∃ c rest, back = c :: rest ∧ isSecretChar c = false := by
  have hredacted : redact "sk-1: \"token\":\"token\":\"x\"" =
      "[REDACTED] \"token\":\"[REDACTED]\":\"x\"" := by decide +kernel
  have hsplit : (redact "sk-1: \"token\":\"token\":\"x\"").toList =
      "[REDACTED] ".toList ++ "\"token\":\"".toList ++ "[REDACTED]\":\"x\"".toList := by
    rw [hredacted]
    rfl
  refine ⟨_, _, hsplit, ?_⟩
  obtain hnone | hnext := redact_clears _ (by decide) hsplit
  · exact absurd hnone (by decide)
  · exact hnext

end ChainAgent.Text

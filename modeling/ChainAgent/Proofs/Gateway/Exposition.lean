import ChainAgent.Gateway.Metrics
import ChainAgent.Proofs.Decimal.Notation
import ChainAgent.Proofs.Text.Lines

/-! The samples of a route in the exposition.

The metrics have one entry for each route, in the order of the routes' names, and a response is
counted in the entry of its route only (`counts_record`, `counts_record_of_ne`). The lines of the
exposition differ in their prefixes, so a route has one sample of its requests and one of its
errors, and these are its counts (`samples_render`). -/
namespace ChainAgent.Gateway.Metrics

open Time (Span)

/-! ### Entries -/

section Entries

variable {route name : String} {f : RouteMetrics → RouteMetrics}
  {entries : List (String × RouteMetrics)}

theorem find?_update_self (h : entries.Pairwise (·.1 < ·.1)) :
    (update route f entries).find? (·.1 == route) =
      some (route, f (((entries.find? (·.1 == route)).map (·.2)).getD .none)) := by
  induction entries with
  | nil => simp [update]
  | cons entry rest ih =>
    obtain ⟨first, r⟩ := entry
    obtain ⟨hfirst, hrest⟩ := List.pairwise_cons.mp h
    unfold update
    split
    · rename_i hlt
      -- The route stands in front of all others, so there is no entry for it.
      have hnone : ((first, r) :: rest).find? (·.1 == route) = none := by
        refine List.find?_eq_none.mpr (List.forall_mem_cons.mpr ⟨?_, fun other hother => ?_⟩)
        · rintro heq
          exact String.lt_irrefl _ (beq_iff_eq.mp heq ▸ hlt)
        · rintro heq
          exact String.lt_irrefl _ (beq_iff_eq.mp heq ▸ String.lt_trans hlt (hfirst other hother))
      rw [hnone]
      simp
    · split
      · rename_i heq
        simp [beq_iff_eq.mp heq]
      · rename_i hne
        have hne : (first == route) = false :=
          beq_eq_false_iff_ne.mpr fun heq => hne (beq_iff_eq.mpr heq.symm)
        simp [hne, ih hrest]

theorem find?_update_of_ne (h : name ≠ route) :
    (update route f entries).find? (·.1 == name) = entries.find? (·.1 == name) := by
  have hroute : (route == name) = false := beq_eq_false_iff_ne.mpr (Ne.symm h)
  induction entries with
  | nil => simp [update, hroute]
  | cons entry rest ih =>
    obtain ⟨first, r⟩ := entry
    unfold update
    split
    · simp [hroute]
    · split
      · rename_i heq
        have hfirst : (first == name) = false := beq_iff_eq.mp heq ▸ hroute
        simp [hfirst]
      · rw [List.find?_cons, List.find?_cons, ih]

theorem mem_update {entry : String × RouteMetrics} (h : entry ∈ update route f entries) :
    entry ∈ entries ∨ entry.1 = route := by
  induction entries with
  | nil => exact .inr (congrArg Prod.fst (List.mem_singleton.mp h))
  | cons first rest ih =>
    unfold update at h
    split at h
    · obtain rfl | hold := List.mem_cons.mp h
      · exact .inr rfl
      · exact .inl hold
    · split at h
      · rename_i heq
        obtain rfl | hold := List.mem_cons.mp h
        · exact .inr (beq_iff_eq.mp heq).symm
        · exact .inl (List.mem_cons_of_mem _ hold)
      · obtain rfl | hlater := List.mem_cons.mp h
        · exact .inl List.mem_cons_self
        · exact (ih hlater).imp_left (List.mem_cons_of_mem _)

theorem update_pairwise (h : entries.Pairwise (·.1 < ·.1)) :
    (update route f entries).Pairwise (·.1 < ·.1) := by
  induction entries with
  | nil => exact List.pairwise_singleton _ _
  | cons entry rest ih =>
    obtain ⟨first, r⟩ := entry
    obtain ⟨hfirst, hrest⟩ := List.pairwise_cons.mp h
    unfold update
    split
    · rename_i hlt
      refine List.pairwise_cons.mpr ⟨List.forall_mem_cons.mpr ⟨hlt, fun other hother => ?_⟩, h⟩
      exact String.lt_trans hlt (hfirst other hother)
    · rename_i hge
      split
      · exact List.pairwise_cons.mpr ⟨hfirst, hrest⟩
      · rename_i hne
        refine List.pairwise_cons.mpr ⟨fun other hother => ?_, ih hrest⟩
        obtain hold | hnew := mem_update hother
        · exact hfirst other hold
        · rw [hnew]
          refine Decidable.byContradiction fun hle => hne (beq_iff_eq.mpr ?_)
          exact String.le_antisymm (String.not_lt.mp hle) (String.not_lt.mp hge)

end Entries

/-! ### Counts -/

/-- A name without quotes and line feeds. -/
def IsPlain (name : String) : Prop := '"' ∉ name.toList ∧ '\n' ∉ name.toList

/-- Each route has one entry, in order, and its name has no quotes and line breaks. -/
structure IsTidy (m : Metrics) : Prop where
  ordered : m.routes.Pairwise (·.1 < ·.1)
  plain : ∀ entry ∈ m.routes, IsPlain entry.1

theorem isTidy_empty : empty.IsTidy := ⟨List.Pairwise.nil, nofun⟩

section Counts

variable {m : Metrics} {route : String}

theorem IsTidy.record (h : m.IsTidy) (hroute : IsPlain route) (status : Nat) (latency : Span) :
    (m.record route status latency).IsTidy where
  ordered := update_pairwise h.ordered
  plain := by
    intro entry hentry
    obtain hold | hnew := mem_update hentry
    · exact h.plain entry hold
    · rwa [hnew]

/-- A response is counted in the entry of its route. -/
theorem IsTidy.counts_record (h : m.IsTidy) (status : Nat) (latency : Span) :
    (m.record route status latency).counts route =
      let (requests, errors) := (m.counts route).getD (0, 0)
      some (countUp requests, if isError status then countUp errors else errors) := by
  unfold counts Metrics.record
  rw [find?_update_self h.ordered]
  cases m.routes.find? (·.1 == route) <;> rfl

/-- It is not counted in another one. -/
theorem counts_record_of_ne {other : String} (h : route ≠ other) (status : Nat) (latency : Span) :
    (m.record other status latency).counts route = m.counts route := by
  unfold counts record
  rw [find?_update_of_ne h]

end Counts

/-! ### Samples -/

/-- Whether a line is a sample of a route under a name. -/
def isSampleOf (name route line : String) : Bool :=
  (sample name route "" "").toList.isPrefixOf line.toList

/-- The samples of a metric for a route. -/
def samples (text name route : String) : List String :=
  (Text.lines text).filter (isSampleOf name route)

theorem sample_toList (name route more value : String) :
    (sample name route more value).toList =
      name.toList ++ '\x7b' :: "route=\"".toList ++ (route.toList ++ '"' ::
        (more.toList ++ ('\x7d' :: ' ' :: value.toList))) := by
  simp [sample]

/-- Neither of two texts is a prefix of the other. -/
def Diverge (s t : String) : Prop := ¬ s.toList <+: t.toList ∧ ¬ t.toList <+: s.toList

instance (s t : String) : Decidable (Diverge s t) := inferInstanceAs (Decidable (_ ∧ _))

/-- A line with another prefix is no sample of a metric. -/
theorem Diverge.isSampleOf {name front line : String} (h : Diverge name front)
    (hline : front.toList <+: line.toList) (route : String) : isSampleOf name route line = false := by
  rw [Metrics.isSampleOf, ← Bool.not_eq_true, List.isPrefixOf_iff_prefix, sample_toList]
  intro hsample
  have hname : name.toList <+: line.toList := by
    refine List.IsPrefix.trans ?_ hsample
    rw [List.append_assoc]
    exact List.prefix_append ..
  obtain hbegins | hbegins := List.prefix_or_prefix_of_prefix hname hline
  · exact h.1 hbegins
  · exact h.2 hbegins

/-- A sample of one route is none of another. -/
theorem isSampleOf_sample (name value : String) {route other : String} (hroute : IsPlain route)
    (hother : IsPlain other) :
    isSampleOf name route (sample name other "" value) = (other == route) := by
  have hends {name : String} (h : IsPlain name) (back : List Char) :
      (name.toList ++ '"' :: back).takeWhile (· != '"') = name.toList := by
    have hinside : ∀ c ∈ name.toList, (c != '"') = true := fun c hc =>
      bne_iff_ne.mpr (ne_of_mem_of_not_mem hc h.1)
    rw [List.takeWhile_append_of_pos hinside, List.takeWhile_cons_of_neg (by simp), List.append_nil]
  rw [isSampleOf, Bool.eq_iff_iff, List.isPrefixOf_iff_prefix, beq_iff_eq, sample_toList,
    sample_toList, List.prefix_append_right_inj]
  constructor
  · rintro ⟨back, hsplit⟩
    have hnames := congrArg (·.takeWhile (· != '"')) hsplit
    simp only [List.append_assoc, List.cons_append, hends hroute, hends hother] at hnames
    exact (String.toList_inj.mp hnames).symm
  · rintro rfl
    simp

/-- The samples of a route among those of an entry are those of its own entry. -/
theorem IsTidy.filter_samples {m : Metrics} (h : m.IsTidy) (name : String) {route : String}
    (hroute : IsPlain route) (value : RouteMetrics → String) :
    (m.routes.map fun entry => sample name entry.1 "" (value entry.2)).filter
        (isSampleOf name route) =
      ((m.routes.find? (·.1 == route)).map fun entry => sample name route "" (value entry.2)).toList := by
  obtain ⟨hordered, hplain⟩ := h
  generalize m.routes = entries at *
  induction entries with
  | nil => rfl
  | cons entry rest ih =>
    obtain ⟨first, r⟩ := entry
    obtain ⟨hfirst, hrest⟩ := List.pairwise_cons.mp hordered
    obtain ⟨hthis, hplain⟩ := List.forall_mem_cons.mp hplain
    rw [List.map_cons, List.filter_cons, isSampleOf_sample _ _ hroute hthis, ih hrest hplain,
      List.find?_cons]
    cases hname : first == route with
    | false => rfl
    | true =>
      -- The names go up, so no later entry has this one.
      have hnone : rest.find? (·.1 == route) = none := by
        refine List.find?_eq_none.mpr fun other hother heq => ?_
        have hlt := hfirst other hother
        rw [beq_iff_eq.mp hname, beq_iff_eq.mp heq] at hlt
        exact String.lt_irrefl _ hlt
      rw [hnone, beq_iff_eq.mp hname]
      rfl

/-! ### The lines of an exposition -/

def requestsTotal : String := "chainpilot_http_requests_total"

def errorsTotal : String := "chainpilot_http_errors_total"

def durationSeconds : String := "chainpilot_http_request_duration_seconds"

theorem newline_not_mem_toString (n : Nat) : '\n' ∉ (toString n).toList := by
  intro h
  have hdigits : (toString n).toList = Decimal.natDigits n := by
    simp [Decimal.natDigits]
  rw [hdigits] at h
  exact absurd (Json.natDigits_isDigit n _ h) (by decide)

theorem newline_not_mem_bare (x : Float) : '\n' ∉ (Decimal.bare.render x).toList := by
  intro h
  obtain (hdigit | hsign) | hspecial | hspecial := Decimal.Layout.mem_render h
  · exact absurd hdigit (by decide)
  · exact absurd hsign (by decide)
  · exact absurd hspecial (by decide)
  · exact absurd hspecial (by decide)

theorem newline_not_mem_sample {name route more value : String} (hname : '\n' ∉ name.toList)
    (hroute : '\n' ∉ route.toList) (hmore : '\n' ∉ more.toList) (hvalue : '\n' ∉ value.toList) :
    '\n' ∉ (sample name route more value).toList := by
  simp [sample_toList, hname, hroute, hmore, hvalue]

/-- Every line of the histogram is a sample of one of its metrics. -/
theorem mem_durationLines {route line : String} {r : RouteMetrics}
    (h : line ∈ durationLines route r) :
    ∃ suffix more value, line = sample (durationSeconds ++ suffix) route more value ∧
      '\n' ∉ suffix.toList ∧ '\n' ∉ more.toList ∧ '\n' ∉ value.toList := by
  obtain hbounds | hrest := List.mem_append.mp h
  · obtain ⟨⟨bound, n⟩, -, rfl⟩ := List.mem_map.mp hbounds
    exact ⟨"_bucket", _, _, rfl, by decide, by simp [newline_not_mem_bare],
      newline_not_mem_toString n⟩
  · obtain rfl | hrest := List.mem_cons.mp hrest
    · exact ⟨"_bucket", _, _, rfl, by decide, by decide, newline_not_mem_toString _⟩
    · obtain rfl | hcount := List.mem_cons.mp hrest
      · exact ⟨"_sum", _, _, rfl, by decide, by decide, newline_not_mem_bare _⟩
      · obtain rfl := List.mem_singleton.mp hcount
        exact ⟨"_count", _, _, rfl, by decide, by decide, newline_not_mem_toString _⟩

theorem newline_not_mem_durationLines {route : String} (hroute : '\n' ∉ route.toList)
    (r : RouteMetrics) : ∀ line ∈ durationLines route r, '\n' ∉ line.toList := by
  intro line hline
  obtain ⟨suffix, more, value, rfl, hsuffix, hmore, hvalue⟩ := mem_durationLines hline
  have hname : '\n' ∉ durationSeconds.toList := by decide
  exact newline_not_mem_sample (by simp [hname, hsuffix]) hroute hmore hvalue

/-- The lines of an exposition. -/
theorem IsTidy.lines_render {m : Metrics} (h : m.IsTidy) :
    Text.lines m.render =
      help requestsTotal "Requests handled, by route." "counter" ++
      m.routes.map (fun entry => sample requestsTotal entry.1 "" (toString entry.2.requests)) ++
      help errorsTotal "Requests answered with a 4xx or 5xx status, by route." "counter" ++
      m.routes.map (fun entry => sample errorsTotal entry.1 "" (toString entry.2.errors)) ++
      help durationSeconds "Handler latency, by route." "histogram" ++
      m.routes.flatMap (fun entry => durationLines entry.1 entry.2) ++ [""] := by
  have hroute : ∀ entry ∈ m.routes, '\n' ∉ entry.1.toList := fun entry hentry =>
    (h.plain entry hentry).2
  refine Text.lines_join ?_
  simp only [List.forall_mem_append, List.forall_mem_map, List.forall_mem_flatMap]
  refine ⟨⟨⟨⟨⟨by decide, fun entry hentry => ?_⟩, by decide⟩, fun entry hentry => ?_⟩, by decide⟩,
    fun entry hentry => newline_not_mem_durationLines (hroute entry hentry) entry.2⟩
  · exact newline_not_mem_sample (by decide) (hroute entry hentry) (by decide)
      (newline_not_mem_toString _)
  · exact newline_not_mem_sample (by decide) (hroute entry hentry) (by decide)
      (newline_not_mem_toString _)

/-- The help of a metric is no sample. -/
theorem filter_help {name : String} (h : Diverge name "#") (route other text kind : String) :
    (help other text kind).filter (isSampleOf name route) = [] := by
  refine List.filter_eq_nil_iff.mpr fun line hline => ?_
  have hfront : "#".toList <+: line.toList := by
    obtain rfl | hline := List.mem_cons.mp hline
    · simp
    · obtain rfl := List.mem_singleton.mp hline
      simp
  simp [h.isSampleOf hfront]

/-- The samples of one metric are none of another. -/
theorem filter_others {name other : String} (h : Diverge name other) (route : String)
    {lines : List String} (hlines : ∀ line ∈ lines, ∃ suffix route more value,
      line = sample (other ++ suffix) route more value) :
    lines.filter (isSampleOf name route) = [] := by
  refine List.filter_eq_nil_iff.mpr fun line hline => ?_
  obtain ⟨suffix, route', more, value, rfl⟩ := hlines line hline
  have hfront : other.toList <+: (sample (other ++ suffix) route' more value).toList := by
    simp [sample_toList]
  simp [h.isSampleOf hfront]

theorem filter_other_samples {name other : String} (h : Diverge name other) (m : Metrics)
    (route : String) (value : RouteMetrics → String) :
    (m.routes.map fun entry => sample other entry.1 "" (value entry.2)).filter
      (isSampleOf name route) = [] := by
  refine filter_others h route (List.forall_mem_map.mpr fun entry _ => ?_)
  exact ⟨"", entry.1, "", value entry.2, by rw [String.append_empty]⟩

/-- The samples of a route are among the requests and the errors, unless they are of the
histogram. -/
theorem IsTidy.samples_eq {m : Metrics} (h : m.IsTidy) {name : String} (hhelp : Diverge name "#")
    (hduration : Diverge name durationSeconds) (route : String) :
    samples m.render name route =
      (m.routes.map fun entry => sample requestsTotal entry.1 "" (toString entry.2.requests)).filter
          (isSampleOf name route) ++
        (m.routes.map fun entry => sample errorsTotal entry.1 "" (toString entry.2.errors)).filter
          (isSampleOf name route) := by
  have hdurations : ∀ line ∈ m.routes.flatMap (fun entry => durationLines entry.1 entry.2),
      ∃ suffix route more value, line = sample (durationSeconds ++ suffix) route more value := by
    refine List.forall_mem_flatMap.mpr fun entry _ line hline => ?_
    obtain ⟨suffix, more, value, hline, -⟩ := mem_durationLines hline
    exact ⟨suffix, entry.1, more, value, hline⟩
  have hlast : [""].filter (isSampleOf name route) = [] := by
    simp [isSampleOf, sample_toList]
  unfold samples
  rw [h.lines_render]
  simp only [List.filter_append, hlast, filter_help hhelp, filter_others hduration route hdurations,
    List.append_nil, List.nil_append]

/-- **A route has one sample of each of its counts, and none if nothing has been counted.** -/
theorem IsTidy.samples_render {m : Metrics} (h : m.IsTidy) {route : String} (hroute : IsPlain route) :
    samples m.render requestsTotal route =
        (m.counts route).toList.map (fun n => sample requestsTotal route "" (toString n.1)) ∧
      samples m.render errorsTotal route =
        (m.counts route).toList.map (fun n => sample errorsTotal route "" (toString n.2)) := by
  rw [h.samples_eq (by decide) (by decide), h.samples_eq (by decide) (by decide)]
  constructor
  · rw [h.filter_samples requestsTotal hroute fun r => toString r.requests,
      filter_other_samples (by decide) m route fun r => toString r.errors, List.append_nil]
    unfold counts
    cases m.routes.find? (·.1 == route) <;> rfl
  · rw [filter_other_samples (by decide) m route fun r => toString r.requests,
      h.filter_samples errorsTotal hroute fun r => toString r.errors, List.nil_append]
    unfold counts
    cases m.routes.find? (·.1 == route) <;> rfl

end ChainAgent.Gateway.Metrics

import ChainAgent.Chain.Registry
import ChainAgent.Proofs.Settings.Acceptance
import ChainAgent.Proofs.Text.Blank

/-! The networks of a configuration by name.

A registry has its networks in the order of their names, and one for each name
(`ordered_ofSettings`): of several entries with one name the last is kept (`get?_ofSettings`). An
accepted configuration may have several. So a name resolves to the last entry with it, and each
entry is reached under its own name if and only if entries with one name have one URL
(`resolve_accepted`). -/
namespace ChainAgent

open Chain (Registry)
open Text (trim saysNothing)

/-! ### Entries of a configuration -/

namespace Settings

/-- The network of an entry. -/
def Network.described (n : Network) : Chain.Network := ⟨trim n.name, trim n.rpcUrl⟩

/-- The last entry with a name. -/
def Chain.lastNamed? (c : Chain) (name : String) : Option Network :=
  c.networks.reverse.find? fun n => trim n.name == trim name

/-- The default entry: the configured one, and otherwise the first. -/
def Chain.chosen? (c : Chain) : Option Network :=
  if saysNothing c.defaultNetwork then c.networks.head?
  else c.networks.find? (·.name == trim c.defaultNetwork)

variable {c : Chain}

theorem Chain.lastNamed?_of_mem {n : Network} (h : n ∈ c.networks) :
    ∃ last ∈ c.networks, c.lastNamed? n.name = some last ∧ trim last.name = trim n.name := by
  have hfound : (c.lastNamed? n.name).isSome = true := by
    rw [lastNamed?, List.find?_isSome]
    exact ⟨n, List.mem_reverse.mpr h, beq_self_eq_true _⟩
  obtain ⟨last, hlast⟩ := Option.isSome_iff_exists.mp hfound
  have hsame := List.find?_some hlast
  exact ⟨last, List.mem_reverse.mp (List.mem_of_find?_eq_some hlast), hlast, beq_iff_eq.mp hsame⟩

theorem Chain.mem_of_chosen? {n : Network} (h : c.chosen? = some n) : n ∈ c.networks := by
  unfold chosen? at h
  split at h
  · exact List.mem_of_mem_head? h
  · exact List.mem_of_find?_eq_some h

/-- The default name is the name of the default entry, as it is written. -/
theorem Chain.defaultNetworkName_of_chosen? {n : Network} (h : c.chosen? = some n) :
    c.defaultNetworkName = some n.name := by
  unfold chosen? at h
  unfold defaultNetworkName
  split at h
  · rename_i hblank
    rw [if_pos hblank, h]
    rfl
  · rename_i hnamed
    have hname := List.find?_some h
    rw [if_neg hnamed, beq_iff_eq.mp hname]

/-- An accepted configuration with networks has a default entry. -/
theorem Accepted.exists_chosen {s : Settings} (h : s.Accepted) (hsome : s.chain.networks ≠ []) :
    ∃ n, s.chain.chosen? = some n := by
  unfold Chain.chosen?
  split
  · exact ⟨_, List.head?_eq_some_head hsome⟩
  · rename_i hnamed
    obtain hnone | ⟨n, hn, hname⟩ := h.defaultNetwork
    · exact absurd hnone (Text.trim_ne_empty (Bool.eq_false_iff.mpr hnamed))
    · rw [← Option.isSome_iff_exists, List.find?_isSome]
      exact ⟨n, hn, beq_iff_eq.mpr hname⟩

end Settings

namespace Chain.Registry

/-! ### Putting networks in their places -/

theorem find?_insert (n : Network) (ns : List Network) (name : String) :
    (insert n ns).find? (·.name == name) =
      if n.name == name then some n else ns.find? (·.name == name) := by
  induction ns with
  | nil =>
    rw [insert, List.find?_cons]
    cases n.name == name <;> rfl
  | cons o rest ih =>
    unfold insert
    split
    · rw [List.find?_cons]
      cases n.name == name <;> rfl
    · split
      · rename_i hsame
        rw [List.find?_cons, List.find?_cons, beq_iff_eq.mp hsame]
        cases o.name == name <;> rfl
      · rename_i hother
        rw [List.find?_cons, List.find?_cons, ih]
        by_cases hname : n.name == name
        · have ho : (o.name == name) = false := by
            rw [beq_iff_eq] at hname
            rw [beq_eq_false_iff_ne, ← hname]
            exact fun heq => hother (beq_iff_eq.mpr heq.symm)
          rw [if_pos hname, if_pos hname, ho]
        · rw [if_neg hname, if_neg hname]

theorem mem_names_insert (n : Network) (ns : List Network) (name : String) :
    name ∈ (insert n ns).map (·.name) ↔ name = n.name ∨ name ∈ ns.map (·.name) := by
  induction ns with
  | nil => simp [insert]
  | cons o rest ih =>
    unfold insert
    split
    · simp
    · split
      · rename_i hsame
        simp [beq_iff_eq.mp hsame]
      · rw [List.map_cons, List.mem_cons, ih, List.map_cons, List.mem_cons, or_left_comm]

theorem ordered_insert (n : Network) {ns : List Network} (h : (ns.map (·.name)).Pairwise (· < ·)) :
    ((insert n ns).map (·.name)).Pairwise (· < ·) := by
  induction ns with
  | nil => exact List.pairwise_singleton _ _
  | cons o rest ih =>
    obtain ⟨hfirst, hrest⟩ := List.pairwise_cons.mp h
    unfold insert
    split
    · rename_i hless
      refine List.pairwise_cons.mpr ⟨fun name hname => ?_, h⟩
      obtain rfl | hname := List.mem_cons.mp hname
      · exact hless
      · exact String.lt_trans hless (hfirst name hname)
    · rename_i hless
      split
      · rename_i hsame
        rw [List.map_cons, beq_iff_eq.mp hsame]
        exact h
      · rename_i hother
        have hgreater : o.name < n.name := by
          rw [← String.not_le]
          exact fun hle => hother (beq_iff_eq.mpr (String.le_antisymm hle (String.not_lt.mp hless)))
        refine List.pairwise_cons.mpr ⟨fun name hname => ?_, ih hrest⟩
        obtain rfl | hname := (mem_names_insert n rest name).mp hname
        · exact hgreater
        · exact hfirst name hname

/-! ### The registry of a configuration -/

variable {c : Settings.Chain}

theorem find?_foldl_insert (ns : List Settings.Network) (kept : List Network) (name : String) :
    (ns.foldl (fun kept n => insert n.described kept) kept).find? (·.name == name) =
      ((ns.reverse.find? fun n => trim n.name == name).map (·.described)).or
        (kept.find? (·.name == name)) := by
  induction ns generalizing kept with
  | nil => rfl
  | cons n ns ih =>
    rw [List.foldl_cons, ih, find?_insert, List.reverse_cons, List.find?_append, List.find?_singleton]
    cases ns.reverse.find? fun n => trim n.name == name with
    | some last => rfl
    | none =>
      have hname : n.described.name = trim n.name := rfl
      rw [hname]
      cases trim n.name == name <;> rfl

theorem mem_names_foldl_insert (ns : List Settings.Network) (kept : List Network) (name : String) :
    name ∈ (ns.foldl (fun kept n => insert n.described kept) kept).map (·.name) ↔
      (∃ n ∈ ns, trim n.name = name) ∨ name ∈ kept.map (·.name) := by
  induction ns generalizing kept with
  | nil => simp
  | cons n ns ih =>
    have hfirst : (∃ o ∈ n :: ns, trim o.name = name) ↔
        (∃ o ∈ ns, trim o.name = name) ∨ name = n.described.name := by
      simp only [List.mem_cons, or_and_right, exists_or, exists_eq_left, Settings.Network.described]
      rw [or_comm, eq_comm]
    rw [List.foldl_cons, ih, mem_names_insert, hfirst, or_assoc]

theorem ordered_foldl_insert (ns : List Settings.Network) {kept : List Network}
    (h : (kept.map (·.name)).Pairwise (· < ·)) :
    ((ns.foldl (fun kept n => insert n.described kept) kept).map (·.name)).Pairwise (· < ·) := by
  induction ns generalizing kept with
  | nil => exact h
  | cons n ns ih => exact ih (ordered_insert n.described h)

/-- Names are in order, and each is there once. -/
theorem ordered_ofSettings (c : Settings.Chain) : (ofSettings c).names.Pairwise (· < ·) :=
  ordered_foldl_insert _ .nil

/-- No network of an accepted configuration is skipped. -/
theorem networks_ofSettings (hkind : ∀ n ∈ c.networks, n.kind = "evm") :
    (ofSettings c).networks = c.networks.foldl (fun kept n => insert n.described kept) [] := by
  have hall : c.networks.filter (isKnownKind ·.kind) = c.networks :=
    List.filter_eq_self.mpr fun n hn => by
      rw [hkind n hn]
      decide
  show (c.networks.filter (isKnownKind ·.kind)).foldl _ [] = _
  rw [hall]
  rfl

theorem mem_names_ofSettings (hkind : ∀ n ∈ c.networks, n.kind = "evm") (name : String) :
    name ∈ (ofSettings c).names ↔ ∃ n ∈ c.networks, trim n.name = name := by
  rw [names, networks_ofSettings hkind, mem_names_foldl_insert]
  simp

/-- A name resolves to the last entry with it. -/
theorem get?_ofSettings (hkind : ∀ n ∈ c.networks, n.kind = "evm") (name : String) :
    (ofSettings c).get? name = (c.lastNamed? name).map (·.described) := by
  rw [get?, networks_ofSettings hkind, find?_foldl_insert, Settings.Chain.lastNamed?]
  exact Option.or_none

/-- The default executor has the last entry with the name of the default one. -/
theorem defaultExecutor_ofSettings (hkind : ∀ n ∈ c.networks, n.kind = "evm")
    {n : Settings.Network} (hchosen : c.chosen? = some n) :
    ∃ last ∈ c.networks, c.lastNamed? n.name = some last ∧ trim last.name = trim n.name ∧
      (ofSettings c).defaultExecutor = .evm last.described := by
  obtain ⟨last, hmem, hlast, hsame⟩ :=
    Settings.Chain.lastNamed?_of_mem (Settings.Chain.mem_of_chosen? hchosen)
  have hdefault : (ofSettings c).defaultName = some n.name :=
    Settings.Chain.defaultNetworkName_of_chosen? hchosen
  have hfound : (ofSettings c).get? n.name = some last.described := by
    rw [get?_ofSettings hkind, hlast]
    rfl
  refine ⟨last, hmem, hlast, hsame, ?_⟩
  rw [defaultExecutor, hdefault, Option.bind_eq_bind, Option.bind_some, hfound]

/-- Entries with one name are the same network if their URLs are the same. -/
theorem described_eq_iff {n last : Settings.Network} (hsame : trim last.name = trim n.name) :
    last.described = n.described ↔ trim last.rpcUrl = trim n.rpcUrl := by
  rw [Settings.Network.described, Settings.Network.described, Network.mk.injEq, hsame]
  exact and_iff_right rfl

/-- **A name resolves to the last entry with it, so every entry is reached under its name if and
only if entries with one name have one URL.** The default executor has the last entry with the name
of the default one. -/
theorem resolve_accepted {s : Settings} (hvalid : s.validate = .ok ())
    (hsome : s.chain.networks ≠ []) :
    let r := ofSettings s.chain
    (∀ n ∈ s.chain.networks, ∃ last, s.chain.lastNamed? n.name = some last ∧
      r.resolve? (some n.name) = some (.evm ⟨trim n.name, trim last.rpcUrl⟩)) ∧
    ((∀ n ∈ s.chain.networks, r.resolve? (some n.name) = some (.evm n.described)) ↔
      ∀ n ∈ s.chain.networks, ∀ other ∈ s.chain.networks, trim n.name = trim other.name →
        trim n.rpcUrl = trim other.rpcUrl) ∧
    ∃ n last, s.chain.chosen? = some n ∧ s.chain.lastNamed? n.name = some last ∧
      r.defaultExecutor = .evm ⟨trim n.name, trim last.rpcUrl⟩ ∧
      (r.defaultExecutor = .evm n.described ↔ trim last.rpcUrl = trim n.rpcUrl) := by
  intro r
  have haccepted := Settings.accepted_of_validate hvalid
  have hkind : ∀ n ∈ s.chain.networks, n.kind = "evm" := fun n hn => (haccepted.networks n hn).kind
  have hresolve {n last : Settings.Network} (hlast : s.chain.lastNamed? n.name = some last) :
      r.resolve? (some n.name) = some (.evm last.described) := by
    show ((ofSettings s.chain).get? n.name).map Executor.evm = _
    rw [get?_ofSettings hkind, hlast]
    rfl
  refine ⟨fun n hn => ?_, ⟨fun hall n hn other hother hname => ?_, fun hall n hn => ?_⟩, ?_⟩
  · obtain ⟨last, -, hlast, hsame⟩ := Settings.Chain.lastNamed?_of_mem hn
    refine ⟨last, hlast, ?_⟩
    rw [hresolve hlast, ← hsame]
    rfl
  · -- both entries are the ones that their common name stands for
    obtain ⟨last, -, hlast, -⟩ := Settings.Chain.lastNamed?_of_mem hn
    have hlast' : s.chain.lastNamed? other.name = some last := by
      rw [Settings.Chain.lastNamed?, ← hname, ← Settings.Chain.lastNamed?, hlast]
    have hfirst := (hresolve hlast).symm.trans (hall n hn)
    have hsecond := (hresolve hlast').symm.trans (hall other hother)
    exact (described_eq_iff hname).mp
      (Executor.evm.inj (Option.some.inj (hfirst.symm.trans hsecond)))
  · obtain ⟨last, hmem, hlast, hsame⟩ := Settings.Chain.lastNamed?_of_mem hn
    rw [hresolve hlast, (described_eq_iff hsame).mpr (hall last hmem n hn hsame)]
  · obtain ⟨n, hchosen⟩ := haccepted.exists_chosen hsome
    obtain ⟨last, -, hlast, hsame, hdefault⟩ := defaultExecutor_ofSettings hkind hchosen
    refine ⟨n, last, hchosen, hlast, ?_, ?_⟩
    · rw [hdefault, ← hsame]
      rfl
    · rw [hdefault, Executor.evm.injEq, described_eq_iff hsame]

/-- Two entries with one name: the agent uses the second, and the first is not reached. -/
theorem resolve_accepted_twice :
    ∃ s : Settings, s.validate = .ok () ∧ s.chain.networks ≠ [] ∧
      s.chain.networks.map (·.described) = [⟨"main", "http://one"⟩, ⟨"main", "http://two"⟩] ∧
      s.chain.chosen?.map (·.described) = some ⟨"main", "http://one"⟩ ∧
      (ofSettings s.chain).resolve? (some "main") = some (.evm ⟨"main", "http://two"⟩) ∧
      (ofSettings s.chain).defaultExecutor = .evm ⟨"main", "http://two"⟩ := by
  let one : Settings.Network := {name := "main", rpcUrl := "http://one"}
  let two : Settings.Network := {name := " main", rpcUrl := "http://two "}
  let s : Settings := {chain := {networks := [one, two]}}
  have hvalid : s.validate = .ok () := Settings.validate_of_isOk (by decide +kernel)
  have hsome : s.chain.networks ≠ [] := List.cons_ne_nil _ _
  have hlast : s.chain.lastNamed? "main" = some two :=
    List.find?_cons_of_pos (by decide +kernel : (trim two.name == trim "main") = true)
  obtain ⟨hnamed, -, n, last, hchosen, hlast', hdefault, -⟩ := resolve_accepted hvalid hsome
  obtain ⟨last₁, hlast₁, hresolve⟩ := hnamed one List.mem_cons_self
  cases hlast.symm.trans hlast₁
  cases hchosen
  cases hlast.symm.trans hlast'
  refine ⟨s, hvalid, hsome, ?_, ?_, ?_, ?_⟩
  · decide +kernel
  · decide +kernel
  · exact hresolve.trans (by decide +kernel)
  · exact hdefault.trans (by decide +kernel)

end Chain.Registry

end ChainAgent

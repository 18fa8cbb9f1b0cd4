/-
# What validation reports

A cluster passes exactly if it is well formed. Of any other the first fault is reported, in the
order in which faults are looked for: the layout, the name, the cloud, and then the pools in the
order of the document. What is wrong with a pool depends on the pools before it, so a list of
pools is taken apart from its end: without the last pool it is checked in the same way.
-/

import ClusterKeeper.Cluster.Validity
import Mathlib.Data.List.Induction
import Mathlib.Data.List.Nodup

namespace ClusterKeeper

variable {c : Cluster} {p : ServerPool} {before pools : List ServerPool} {f : ClusterFault}
  {e : ClusterError}

namespace Text

theorem isBlank_iff (s : String) : isBlank s = true ↔ ∀ ch ∈ s.toList, isWhite ch = true :=
  List.all_eq_true

theorem isBlank_eq_false_iff (s : String) :
    isBlank s = false ↔ ∃ ch ∈ s.toList, isWhite ch = false :=
  List.all_eq_false.trans (by simp)

end Text

/-! ## Pools behind others -/

namespace ServerPool

/-- A pool has the name of one before it. -/
def Repeats (p : ServerPool) (before : List ServerPool) : Prop := p.name ∈ before.map (·.name)

/-- A pool wants more machines at least than at most. -/
def Reversed (p : ServerPool) : Prop := p.maxCount < p.minCount

/-- What there is to report of a pool behind others. Of a pool with both faults it is the
repeated name. -/
inductive FaultBehind (before : List ServerPool) (p : ServerPool) : ClusterFault → Prop where
  | repeated (h : p.Repeats before) : FaultBehind before p (.repeatedPool p.name)
  | reversed (hname : ¬ p.Repeats before) (h : p.Reversed) :
      FaultBehind before p (.reversedCounts p.name p.minCount p.maxCount)

theorem exists_faultBehind_iff : (∃ f, p.FaultBehind before f) ↔ p.Repeats before ∨ p.Reversed := by
  constructor
  · rintro ⟨f, h | ⟨-, h⟩⟩
    · exact .inl h
    · exact .inr h
  · intro h
    by_cases hname : p.Repeats before
    · exact ⟨_, .repeated hname⟩
    · exact ⟨_, .reversed hname (h.resolve_left hname)⟩

/-- Pools of different names of which none wants more machines at least than at most. -/
structure Sound (pools : List ServerPool) : Prop where
  names : (pools.map (·.name)).Nodup
  counts : ∀ p ∈ pools, p.minCount ≤ p.maxCount

theorem sound_nil : Sound [] := ⟨List.nodup_nil, List.forall_mem_nil _⟩

/-- Sound pools stay sound up to the first that has a fault behind them. -/
theorem sound_concat_iff : Sound (pools ++ [p]) ↔ Sound pools ∧ ¬ ∃ f, p.FaultBehind pools f := by
  have hnames : ((pools ++ [p]).map (·.name)).Nodup ↔
      (pools.map (·.name)).Nodup ∧ ¬ p.Repeats pools := by
    rw [List.map_append, List.map_singleton, ← List.concat_eq_append, List.nodup_concat]
    exact and_comm
  have hcounts : (∀ q ∈ pools ++ [p], q.minCount ≤ q.maxCount) ↔
      (∀ q ∈ pools, q.minCount ≤ q.maxCount) ∧ ¬ p.Reversed := by
    rw [List.forall_mem_append, List.forall_mem_singleton, Reversed, UInt32.not_lt]
  rw [exists_faultBehind_iff, not_or]
  constructor
  · rintro ⟨hn, hc⟩
    exact ⟨⟨(hnames.1 hn).1, (hcounts.1 hc).1⟩, (hnames.1 hn).2, (hcounts.1 hc).2⟩
  · rintro ⟨⟨hn, hc⟩, hrepeats, hreversed⟩
    exact ⟨hnames.2 ⟨hn, hrepeats⟩, hcounts.2 ⟨hc, hreversed⟩⟩

/-- Pools that are not sound have a first one with a fault. -/
theorem sound_or_exists_fault (pools : List ServerPool) :
    Sound pools ∨ ∃ before p after f, pools = before ++ p :: after ∧ Sound before ∧
      FaultBehind before p f := by
  induction pools using List.reverseRecOn with
  | nil => exact .inl sound_nil
  | append_singleton pools p ih =>
    -- Only if nothing is wrong before it can the last pool be the first with a fault.
    obtain hsound | ⟨before, q, after, f, rfl, hbefore, hq⟩ := ih
    · by_cases hp : ∃ f, p.FaultBehind pools f
      · obtain ⟨f, hp⟩ := hp
        exact .inr ⟨pools, p, [], f, rfl, hsound, hp⟩
      · exact .inl (sound_concat_iff.2 ⟨hsound, hp⟩)
    · exact .inr ⟨before, q, after ++ [p], f, by simp, hbefore, hq⟩

theorem Sound.of_append (h : Sound (before ++ pools)) : Sound before where
  names := (List.map_append ▸ h.names).of_append_left
  counts p hp := h.counts p (List.mem_append_left _ hp)

/-- Sound pools are those of which none has a fault behind those before it. -/
theorem sound_iff_forall_not_fault :
    Sound pools ↔ ∀ before p after f, pools = before ++ p :: after → ¬ p.FaultBehind before f := by
  constructor
  · rintro h before p after f rfl hp
    -- What is sound up to this pool and further is sound up to this pool.
    rw [List.append_cons] at h
    exact (sound_concat_iff.1 h.of_append).2 ⟨f, hp⟩
  · intro h
    obtain hsound | ⟨before, p, after, f, hpools, -, hp⟩ := sound_or_exists_fault pools
    · exact hsound
    · exact absurd hp (h before p after f hpools)

end ServerPool

/-! ## Clusters -/

namespace Cluster

open ServerPool (Sound FaultBehind)

/-- A pool without a fault is passed and its name kept. -/
theorem checkPools_cons_of_fits (h : ¬ ∃ f, p.FaultBehind before f) (rest : List ServerPool) :
    checkPools (before.reverse.map (·.name)) (p :: rest) =
      checkPools ((before ++ [p]).reverse.map (·.name)) rest := by
  rw [ServerPool.exists_faultBehind_iff, not_or, ServerPool.Reversed] at h
  obtain ⟨hrepeats, hreversed⟩ := h
  have hname : p.name ∉ before.reverse.map (·.name) := by
    rwa [List.map_reverse, List.mem_reverse]
  rw [checkPools, if_neg hname, if_neg hreversed, List.reverse_concat, List.map_cons]

/-- A pool with a fault is reported. -/
theorem checkPools_cons_of_fault (h : p.FaultBehind before f) (rest : List ServerPool) :
    checkPools (before.reverse.map (·.name)) (p :: rest) = .error (.fault f) := by
  have hname : p.name ∈ before.reverse.map (·.name) ↔ p.Repeats before := by
    rw [List.map_reverse, List.mem_reverse, ServerPool.Repeats]
  rw [checkPools]
  cases h with
  | repeated h => rw [if_pos (hname.2 h)]
  | reversed hrepeats hreversed =>
    rw [ServerPool.Reversed] at hreversed
    rw [if_neg (mt hname.1 hrepeats), if_pos hreversed]

/-- Sound pools are passed one after another. -/
theorem checkPools_append (h : Sound before) (rest : List ServerPool) :
    checkPools [] (before ++ rest) = checkPools (before.reverse.map (·.name)) rest := by
  -- The last of the sound pools becomes the first of the rest, which is why the rest varies.
  induction before using List.reverseRecOn generalizing rest with
  | nil => rfl
  | append_singleton before p ih =>
    obtain ⟨hbefore, hp⟩ := ServerPool.sound_concat_iff.1 h
    rw [List.append_assoc, List.singleton_append, ih hbefore, checkPools_cons_of_fits hp]

/-- A cluster whose layout is understood, with a name, a cloud and sound pools. -/
structure WellFormed (c : Cluster) : Prop where
  version : c.version ≤ supportedVersion
  name : ∃ ch ∈ c.name.toList, Text.isWhite ch = false
  cloud : ∃ ch ∈ c.cloud.toList, Text.isWhite ch = false
  pools : Sound c.pools

/-- What there is to report of a cluster. Each fault is reported only of a cluster that has none
of those above it, and of the pools with a fault behind those before them only the first. -/
inductive FirstFault (c : Cluster) : ClusterError → Prop where
  | version (h : supportedVersion < c.version) :
      FirstFault c (.unsupportedVersion c.version supportedVersion)
  | name (hversion : c.version ≤ supportedVersion)
      (h : ∀ ch ∈ c.name.toList, Text.isWhite ch = true) : FirstFault c (.fault .noName)
  | cloud (hversion : c.version ≤ supportedVersion)
      (hname : ∃ ch ∈ c.name.toList, Text.isWhite ch = false)
      (h : ∀ ch ∈ c.cloud.toList, Text.isWhite ch = true) :
      FirstFault c (.fault (.noCloud c.name))
  | pool {before after : List ServerPool} {p : ServerPool} {f : ClusterFault}
      (hversion : c.version ≤ supportedVersion)
      (hname : ∃ ch ∈ c.name.toList, Text.isWhite ch = false)
      (hcloud : ∃ ch ∈ c.cloud.toList, Text.isWhite ch = false)
      (hpools : c.pools = before ++ p :: after)
      (hfirst : ∀ sooner q later g, before = sooner ++ q :: later → ¬ q.FaultBehind sooner g)
      (h : p.FaultBehind before f) : FirstFault c (.fault f)

/-- A cluster is well formed or has a first fault. -/
theorem wellFormed_or_exists_firstFault (c : Cluster) : c.WellFormed ∨ ∃ e, c.FirstFault e := by
  by_cases hversion : c.version ≤ supportedVersion
  case neg => exact .inr ⟨_, .version (UInt32.not_le.1 hversion)⟩
  by_cases hname : ∃ ch ∈ c.name.toList, Text.isWhite ch = false
  case neg => exact .inr ⟨_, .name hversion (by simpa using hname)⟩
  by_cases hcloud : ∃ ch ∈ c.cloud.toList, Text.isWhite ch = false
  case neg => exact .inr ⟨_, .cloud hversion hname (by simpa using hcloud)⟩
  obtain hpools | ⟨before, p, after, f, hpools, hbefore, hp⟩ :=
    ServerPool.sound_or_exists_fault c.pools
  · exact .inl ⟨hversion, hname, hcloud, hpools⟩
  · have hfirst := ServerPool.sound_iff_forall_not_fault.1 hbefore
    exact .inr ⟨_, .pool hversion hname hcloud hpools hfirst hp⟩

/-- If a cluster's layout is understood, its name, its cloud and its pools are looked at. -/
theorem validate_of_version (h : c.version ≤ supportedVersion) :
    c.validate =
      if Text.isBlank c.name then .error (.fault .noName)
      else if Text.isBlank c.cloud then .error (.fault (.noCloud c.name))
      else checkPools [] c.pools := by
  rw [validate, checkVersion, if_neg (UInt32.not_lt.2 h)]
  rfl

/-- If a cluster has a name and a cloud as well, its pools decide. -/
theorem validate_eq_checkPools (hversion : c.version ≤ supportedVersion)
    (hname : ∃ ch ∈ c.name.toList, Text.isWhite ch = false)
    (hcloud : ∃ ch ∈ c.cloud.toList, Text.isWhite ch = false) :
    c.validate = checkPools [] c.pools := by
  rw [← Text.isBlank_eq_false_iff] at hname hcloud
  rw [validate_of_version hversion, hname, hcloud]
  rfl

theorem validate_of_wellFormed (h : c.WellFormed) : c.validate = .ok () := by
  have hpools := checkPools_append h.pools []
  rw [List.append_nil] at hpools
  rw [validate_eq_checkPools h.version h.name h.cloud, hpools, checkPools]

theorem validate_of_firstFault (h : c.FirstFault e) : c.validate = .error e := by
  cases h with
  | version h =>
    rw [validate, checkVersion, if_pos h]
    rfl
  | name hversion h =>
    rw [← Text.isBlank_iff] at h
    rw [validate_of_version hversion, if_pos h]
  | cloud hversion hname h =>
    rw [← Text.isBlank_eq_false_iff] at hname
    rw [← Text.isBlank_iff] at h
    rw [validate_of_version hversion, hname, if_pos h]
    rfl
  | pool hversion hname hcloud hpools hfirst h =>
    have hbefore := ServerPool.sound_iff_forall_not_fault.2 hfirst
    rw [validate_eq_checkPools hversion hname hcloud, hpools, checkPools_append hbefore,
      checkPools_cons_of_fault h]

theorem wellFormed_of_validate (h : c.validate = .ok ()) : c.WellFormed := by
  obtain hc | ⟨e, he⟩ := c.wellFormed_or_exists_firstFault
  · exact hc
  · rw [validate_of_firstFault he] at h
    cases h

theorem firstFault_of_validate (h : c.validate = .error e) : c.FirstFault e := by
  obtain hc | ⟨e', he⟩ := c.wellFormed_or_exists_firstFault
  · rw [validate_of_wellFormed hc] at h
    cases h
  · obtain rfl : e' = e := Except.error.inj ((validate_of_firstFault he).symm.trans h)
    exact he

/-- The pools of a valid cluster have different names. -/
theorem nodup_of_validate (h : c.validate = .ok ()) : (c.pools.map (·.name)).Nodup :=
  (wellFormed_of_validate h).pools.names

/-- A cluster is valid exactly if it is well formed, and of any other the first fault is
reported. -/
theorem validate_reports_first (c : Cluster) :
    (c.validate = .ok () ↔ c.WellFormed) ∧ ∀ e, c.validate = .error e ↔ c.FirstFault e :=
  ⟨⟨wellFormed_of_validate, validate_of_wellFormed⟩,
    fun _ => ⟨firstFault_of_validate, validate_of_firstFault⟩⟩

/-- The second pool has both faults and the third one, so it is the second one's name. -/
example :
    validate
      { name := "demo"
        cloud := "fake"
        pools := [{ name := "web", maxCount := 1 }, { name := "web", minCount := 2 },
          { name := "db", minCount := 1 }] } = .error (.fault (.repeatedPool "web")) := by
  decide

end Cluster

end ClusterKeeper

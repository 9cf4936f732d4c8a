import CurvePlot.Sampling

/-! The connected pieces of a curve.

`runs` builds the pieces from the last sample to the first. A walk in the other direction, which keeps the
piece that may still go on apart from those that have ended, gives the same ones (`close_foldl`). All of
them together are the finite samples in order, and two samples are in one piece exactly if no gap is
between them (`samePiece_iff`). -/

namespace CurvePlot

/-- The value of a sample is a finite number. -/
def Sample.IsFinite (p : Sample) : Prop := p.y.isFinite = true

instance : DecidablePred Sample.IsFinite := fun _ => inferInstanceAs (Decidable (_ = _))

namespace Sampling

variable {p q : Sample} {ps run : List Sample} {pieces rest : List (List Sample)} {i j k l : Nat}

/-! ## Runs -/

theorem runs_gap (h : ¬ p.IsFinite) : runs (p :: ps) = runs ps := by
  have hy : p.y.isFinite = false := Bool.eq_false_iff.mpr h
  rw [runs.eq_def]
  simp only [hy, Bool.not_false, if_true]

/-- A finite sample in front of a gap is a run of its own. -/
theorem runs_start (h : p.IsFinite) (hps : ∀ q ∈ ps.head?, ¬ q.IsFinite) :
    runs (p :: ps) = [p] :: runs ps := by
  have hy : p.y.isFinite = true := h
  rw [runs.eq_def]
  simp only [hy, Bool.not_true, Bool.false_eq_true, if_false]
  cases ps with
  | nil => rfl
  | cons q ps =>
    have hq : q.y.isFinite = false := Bool.eq_false_iff.mpr (hps q rfl)
    cases runs (q :: ps) with
    | nil => rfl
    | cons run rest => simp only [hq, Bool.false_eq_true, if_false]

/-- A finite sample in front of another one goes to its run. -/
theorem exists_runs_extend (ps : List Sample) (h : p.IsFinite) (hq : q.IsFinite) :
    ∃ run rest, runs (q :: ps) = (q :: run) :: rest ∧
      runs (p :: q :: ps) = (p :: q :: run) :: rest := by
  have hy : p.y.isFinite = true := h
  have hy' : q.y.isFinite = true := hq
  have hfirst : ∃ run rest, runs (q :: ps) = (q :: run) :: rest := by
    rw [runs.eq_def]
    simp only [hy', Bool.not_true, Bool.false_eq_true, if_false]
    split
    · split <;> exact ⟨_, _, rfl⟩
    · exact ⟨_, _, rfl⟩
  obtain ⟨run, rest, heq⟩ := hfirst
  refine ⟨run, rest, heq, ?_⟩
  rw [runs.eq_def]
  simp only [hy, hy', heq, Bool.not_true, Bool.false_eq_true, if_false, if_true]

/-- What is known of the pieces goes from the samples behind one to those with it in front. -/
theorem runs_induction {motive : List Sample → List (List Sample) → Prop} (nil : motive [] [])
    (gap : ∀ p ps, ¬ p.IsFinite → motive ps (runs ps) → motive (p :: ps) (runs ps))
    (start : ∀ p ps, p.IsFinite → (∀ q ∈ ps.head?, ¬ q.IsFinite) → motive ps (runs ps) →
      motive (p :: ps) ([p] :: runs ps))
    (extend : ∀ p q ps run rest, p.IsFinite → q.IsFinite →
      motive (q :: ps) ((q :: run) :: rest) → motive (p :: q :: ps) ((p :: q :: run) :: rest))
    (ps : List Sample) : motive ps (runs ps) := by
  induction ps with
  | nil => exact nil
  | cons p ps ih =>
    by_cases hp : p.IsFinite
    · cases ps with
      | nil =>
        have hps : ∀ q ∈ ([] : List Sample).head?, ¬ q.IsFinite := fun _ hq => nomatch hq
        rw [runs_start hp hps]
        exact start p [] hp hps ih
      | cons q ps =>
        by_cases hq : q.IsFinite
        · obtain ⟨run, rest, hrest, hruns⟩ := exists_runs_extend ps hp hq
          rw [hruns]
          rw [hrest] at ih
          exact extend p q ps run rest hp hq ih
        · have hps : ∀ r ∈ (q :: ps).head?, ¬ r.IsFinite :=
            fun r hr => Option.some_inj.mp hr ▸ hq
          rw [runs_start hp hps]
          exact start p (q :: ps) hp hps ih
    · rw [runs_gap hp]
      exact gap p ps hp ih

theorem flatten_runs (ps : List Sample) : (runs ps).flatten = ps.filter fun p => p.IsFinite := by
  induction ps using runs_induction with
  | nil => rfl
  | gap p ps hp ih => rw [ih, List.filter_cons_of_neg (by simpa using hp)]
  | start p ps hp _ ih =>
    rw [List.flatten_cons, ih, List.filter_cons_of_pos (by simpa using hp)]
    rfl
  | extend p q ps run rest hp _ ih =>
    rw [List.filter_cons_of_pos (by simpa using hp), ← ih]
    rfl

theorem ne_nil_of_mem_runs (ps : List Sample) : ∀ run ∈ runs ps, run ≠ [] := by
  induction ps using runs_induction with
  | nil => nofun
  | gap p ps _ ih => exact ih
  | start p ps _ _ ih => exact List.forall_mem_cons.mpr ⟨nofun, ih⟩
  | extend p q ps run rest _ _ ih =>
    exact List.forall_mem_cons.mpr ⟨nofun, (List.forall_mem_cons.mp ih).2⟩

/-! ## The walk -/

/-- The runs that have ended, and the one that may still go on. -/
structure Walk where
  ended : List (List Sample)
  current : List Sample

namespace Walk

variable {s : Walk}

/-- The runs if no more samples follow. A run that has not begun is none. -/
def close (s : Walk) : List (List Sample) :=
  if s.current.isEmpty then s.ended else s.ended ++ [s.current]

/-- A finite sample goes to the current run and a gap ends it. -/
def step (s : Walk) (p : Sample) : Walk :=
  if p.IsFinite then { s with current := s.current ++ [p] } else ⟨s.close, []⟩

/-- All runs if the samples `ps` follow. -/
def total (s : Walk) (ps : List Sample) : List (List Sample) := s.ended ++ runs (s.current ++ ps)

end Walk

theorem runs_append (hrun : ∀ p ∈ run, p.IsFinite) (hps : ∀ q ∈ ps.head?, ¬ q.IsFinite) :
    runs (run ++ ps) = (⟨[], run⟩ : Walk).close ++ runs ps := by
  induction run with
  | nil => rfl
  | cons p run ih =>
    obtain ⟨hp, hrun⟩ := List.forall_mem_cons.mp hrun
    cases run with
    | nil => exact runs_start hp hps
    | cons q run =>
      obtain ⟨hq, -⟩ := List.forall_mem_cons.mp hrun
      obtain ⟨run', rest, hrest, hruns⟩ := exists_runs_extend (run ++ ps) hp hq
      have hcons : (q :: run') :: rest = (q :: run) :: runs ps := hrest.symm.trans (ih hrun)
      cases hcons
      exact hruns

namespace Walk

variable {s : Walk}

theorem close_eq_append (s : Walk) : s.close = s.ended ++ (⟨[], s.current⟩ : Walk).close := by
  rw [close, close]
  split
  · exact (List.append_nil _).symm
  · rfl

theorem finite_step (hs : ∀ q ∈ s.current, q.IsFinite) : ∀ q ∈ (s.step p).current, q.IsFinite := by
  rw [step]
  split
  · next hp => exact List.forall_mem_append.mpr ⟨hs, List.forall_mem_singleton.mpr hp⟩
  · exact nofun

/-- A step leaves the runs as they will be. -/
theorem total_step (hs : ∀ q ∈ s.current, q.IsFinite) :
    (s.step p).total ps = s.total (p :: ps) := by
  rw [step]
  split
  · rw [total, total, List.append_assoc]
    rfl
  · next hp =>
    have hhead : ∀ q ∈ (p :: ps).head?, ¬ q.IsFinite := fun q hq => Option.some_inj.mp hq ▸ hp
    rw [total, total, runs_append hs hhead, runs_gap hp, s.close_eq_append, List.append_assoc]
    rfl

theorem close_foldl (hs : ∀ q ∈ s.current, q.IsFinite) : (ps.foldl step s).close = s.total ps := by
  induction ps generalizing s with
  | nil =>
    have hnil : ∀ q ∈ ([] : List Sample).head?, ¬ q.IsFinite := fun _ hq => nomatch hq
    rw [List.foldl_nil, total, runs_append hs hnil, s.close_eq_append]
    exact congrArg _ (List.append_nil _).symm
  | cons p ps ih => rw [List.foldl_cons, ih (finite_step hs), total_step hs]

end Walk

/-! ## Places in the runs -/

/-- How many finite samples are in front of the `i`-th one. -/
def rank (ps : List Sample) (i : Nat) : Nat := (ps.take i).countP fun p => p.IsFinite

theorem rank_gap (h : ¬ p.IsFinite) : rank (p :: ps) (i + 1) = rank ps i := by
  rw [rank, List.take_succ_cons, List.countP_cons_of_neg (by simpa using h), rank]

theorem rank_finite (h : p.IsFinite) : rank (p :: ps) (i + 1) = rank ps i + 1 := by
  rw [rank, List.take_succ_cons, List.countP_cons_of_pos (by simpa using h), rank]

/-- The `i`-th sample is a point of the `k`-th piece: it stands there behind as many points, with those of
the pieces in front, as there are finite samples in front of it. -/
def LiesIn (ps : List Sample) (pieces : List (List Sample)) (i k : Nat) : Prop :=
  ∃ piece m p, pieces[k]? = some piece ∧ piece[m]? = some p ∧ ps[i]? = some p ∧
    (pieces.take k).flatten.length + m = rank ps i

theorem liesIn_gap (h : ¬ p.IsFinite) : LiesIn (p :: ps) pieces (i + 1) k ↔ LiesIn ps pieces i k := by
  simp only [LiesIn, List.getElem?_cons_succ, rank_gap h]

theorem liesIn_start (h : p.IsFinite) :
    LiesIn (p :: ps) ([p] :: pieces) (i + 1) k ↔ ∃ l, k = l + 1 ∧ LiesIn ps pieces i l := by
  constructor
  · rintro ⟨piece, m, q, hpiece, hm, hq, hrank⟩
    rw [rank_finite h] at hrank
    cases k with
    | zero =>
      cases hpiece
      obtain ⟨hlt, -⟩ := List.getElem?_eq_some_iff.mp hm
      rw [List.take_zero, List.flatten_nil, List.length_nil] at hrank
      rw [List.length_singleton] at hlt
      omega
    | succ l =>
      rw [List.take_succ_cons, List.flatten_cons, List.length_append, List.length_singleton] at hrank
      exact ⟨l, rfl, piece, m, q, hpiece, hm, hq, by omega⟩
  · rintro ⟨l, rfl, piece, m, q, hpiece, hm, hq, hrank⟩
    refine ⟨piece, m, q, hpiece, hm, hq, ?_⟩
    rw [rank_finite h, List.take_succ_cons, List.flatten_cons, List.length_append,
      List.length_singleton]
    omega

theorem liesIn_extend (h : p.IsFinite) :
    LiesIn (p :: ps) ((p :: run) :: rest) (i + 1) k ↔ LiesIn ps (run :: rest) i k := by
  cases k with
  | zero =>
    simp only [LiesIn, rank_finite h, List.take_zero, List.flatten_nil, List.length_nil,
      Nat.zero_add, List.getElem?_cons_zero, List.getElem?_cons_succ, Option.some_inj]
    constructor
    · rintro ⟨piece, m, q, rfl, hm, hq, rfl⟩
      exact ⟨run, _, q, rfl, hm, hq, rfl⟩
    · rintro ⟨piece, m, q, rfl, hm, hq, hrank⟩
      exact ⟨p :: run, m + 1, q, rfl, hm, hq, by rw [hrank]⟩
  | succ l =>
    simp only [LiesIn, rank_finite h, List.take_succ_cons, List.flatten_cons, List.length_append,
      List.length_cons, List.getElem?_cons_succ, Nat.add_right_comm _ 1, Nat.add_right_cancel_iff]

theorem liesIn_zero : LiesIn (p :: ps) ((p :: run) :: rest) 0 k ↔ k = 0 := by
  constructor
  · rintro ⟨piece, m, q, -, -, -, hrank⟩
    cases k with
    | zero => rfl
    | succ l =>
      rw [List.take_succ_cons, List.flatten_cons, List.length_append, List.length_cons, rank,
        List.take_zero, List.countP_nil] at hrank
      omega
  · rintro rfl
    exact ⟨p :: run, 0, p, rfl, rfl, rfl, rfl⟩

theorem LiesIn.finite (h : LiesIn ps (runs ps) i k) : ∀ p ∈ ps[i]?, p.IsFinite := by
  obtain ⟨piece, m, q, hpiece, hm, hq, -⟩ := h
  have hmem : q ∈ (runs ps).flatten :=
    List.mem_flatten.mpr ⟨piece, List.mem_of_getElem? hpiece, List.mem_of_getElem? hm⟩
  rw [flatten_runs, List.mem_filter, decide_eq_true_eq] at hmem
  rw [hq]
  exact fun p hp => Option.some_inj.mp hp ▸ hmem.2

/-- A sample lies in one piece only. -/
theorem LiesIn.unique (h : LiesIn ps pieces i k) (h' : LiesIn ps pieces i l) : k = l := by
  have hle {k l : Nat} (h : LiesIn ps pieces i k) (h' : LiesIn ps pieces i l) : ¬ k < l := by
    intro hlt
    obtain ⟨piece, m, p, hpiece, hm, -, hrank⟩ := h
    obtain ⟨-, m', -, -, -, -, hrank'⟩ := h'
    obtain ⟨hm, -⟩ := List.getElem?_eq_some_iff.mp hm
    obtain ⟨d, rfl⟩ := Nat.exists_eq_add_of_lt hlt
    rw [Nat.add_right_comm, List.take_add, List.take_add_one, hpiece, Option.toList_some,
      List.flatten_append, List.flatten_append, List.flatten_singleton, List.length_append,
      List.length_append] at hrank'
    omega
  exact Nat.le_antisymm (Nat.le_of_not_lt (hle h' h)) (Nat.le_of_not_lt (hle h h'))

/-- The `i`-th and the `j`-th sample are points of one piece. -/
def SamePiece (ps : List Sample) (pieces : List (List Sample)) (i j : Nat) : Prop :=
  ∃ k, LiesIn ps pieces i k ∧ LiesIn ps pieces j k

theorem samePiece_zero_zero : SamePiece (p :: ps) ((p :: run) :: rest) 0 0 :=
  ⟨0, liesIn_zero.mpr rfl, liesIn_zero.mpr rfl⟩

theorem not_samePiece_gap (h : ¬ p.IsFinite) : ¬ SamePiece (p :: ps) (runs ps) 0 j := by
  rintro ⟨k, hk, -⟩
  rw [← runs_gap h] at hk
  exact h (hk.finite p rfl)

theorem samePiece_gap (h : ¬ p.IsFinite) :
    SamePiece (p :: ps) pieces (i + 1) (j + 1) ↔ SamePiece ps pieces i j := by
  simp only [SamePiece, liesIn_gap h]

theorem not_samePiece_start (h : p.IsFinite) : ¬ SamePiece (p :: ps) ([p] :: pieces) 0 (j + 1) := by
  rintro ⟨k, hk, hj⟩
  obtain rfl := liesIn_zero.mp hk
  obtain ⟨l, hl, -⟩ := (liesIn_start h).mp hj
  cases hl

theorem samePiece_start (h : p.IsFinite) :
    SamePiece (p :: ps) ([p] :: pieces) (i + 1) (j + 1) ↔ SamePiece ps pieces i j := by
  simp only [SamePiece, liesIn_start h]
  constructor
  · rintro ⟨k, ⟨l, rfl, hi⟩, l', hl, hj⟩
    cases hl
    exact ⟨l, hi, hj⟩
  · rintro ⟨l, hi, hj⟩
    exact ⟨l + 1, ⟨l, rfl, hi⟩, l, rfl, hj⟩

/-- The first sample of a piece is in it with those behind the second one. -/
theorem samePiece_extend_zero (h : p.IsFinite) :
    SamePiece (p :: q :: ps) ((p :: q :: run) :: rest) 0 (j + 1) ↔
      SamePiece (q :: ps) ((q :: run) :: rest) 0 j := by
  simp only [SamePiece, liesIn_zero, liesIn_extend h, exists_eq_left]

theorem samePiece_extend (h : p.IsFinite) :
    SamePiece (p :: ps) ((p :: run) :: rest) (i + 1) (j + 1) ↔ SamePiece ps (run :: rest) i j := by
  simp only [SamePiece, liesIn_extend h]

/-! ## Samples without a gap between them -/

/-- The samples from the `i`-th to the `j`-th one are all finite. -/
def FiniteFrom (ps : List Sample) (i j : Nat) : Prop :=
  ∀ l, i ≤ l → l ≤ j → ∀ p ∈ ps[l]?, p.IsFinite

theorem finiteFrom_succ : FiniteFrom (p :: ps) (i + 1) (j + 1) ↔ FiniteFrom ps i j := by
  constructor
  · intro h l hi hj
    exact h (l + 1) (Nat.succ_le_succ hi) (Nat.succ_le_succ hj)
  · intro h l hi hj
    cases l with
    | zero => exact absurd hi (Nat.not_succ_le_zero i)
    | succ l => exact h l (Nat.le_of_succ_le_succ hi) (Nat.le_of_succ_le_succ hj)

theorem finiteFrom_zero_succ :
    FiniteFrom (p :: ps) 0 (j + 1) ↔ p.IsFinite ∧ FiniteFrom ps 0 j := by
  constructor
  · intro h
    exact ⟨h 0 (Nat.le_refl 0) (Nat.zero_le _) p rfl,
      fun l _ hj => h (l + 1) (Nat.zero_le _) (Nat.succ_le_succ hj)⟩
  · rintro ⟨hp, h⟩ l - hj
    cases l with
    | zero => exact fun q hq => Option.some_inj.mp hq ▸ hp
    | succ l => exact h l (Nat.zero_le l) (Nat.le_of_succ_le_succ hj)

theorem finiteFrom_zero_zero : FiniteFrom (p :: ps) 0 0 ↔ p.IsFinite := by
  constructor
  · exact fun h => h 0 (Nat.le_refl 0) (Nat.le_refl 0) p rfl
  · rintro hp l - hl
    obtain rfl := Nat.le_zero.mp hl
    exact fun q hq => Option.some_inj.mp hq ▸ hp

theorem finiteFrom_zero_gap (hp : ¬ p.IsFinite) : ¬ FiniteFrom (p :: ps) 0 j :=
  fun h => hp (h 0 (Nat.le_refl 0) (Nat.zero_le j) p rfl)

/-- Two samples lie in one run exactly if those from the one to the other are all finite. -/
theorem samePiece_iff (ps : List Sample) :
    ∀ i j, i ≤ j → j < ps.length → (SamePiece ps (runs ps) i j ↔ FiniteFrom ps i j) := by
  induction ps using runs_induction with
  | nil => exact fun i j _ hj => nomatch hj
  | gap p ps hp ih =>
    rintro (_ | i) (_ | j) hij hj
    · exact iff_of_false (not_samePiece_gap hp) (finiteFrom_zero_gap hp)
    · exact iff_of_false (not_samePiece_gap hp) (finiteFrom_zero_gap hp)
    · exact absurd hij (Nat.not_succ_le_zero i)
    · rw [samePiece_gap hp, finiteFrom_succ]
      exact ih i j (Nat.le_of_succ_le_succ hij) (Nat.lt_of_succ_lt_succ hj)
  | start p ps hp hps ih =>
    rintro (_ | i) (_ | j) hij hj
    · exact iff_of_true samePiece_zero_zero (finiteFrom_zero_zero.mpr hp)
    · -- a gap follows
      refine iff_of_false (not_samePiece_start hp) fun h => ?_
      cases ps with
      | nil => exact Nat.not_lt_zero j (Nat.lt_of_succ_lt_succ hj)
      | cons q ps => exact finiteFrom_zero_gap (hps q rfl) (finiteFrom_zero_succ.mp h).2
    · exact absurd hij (Nat.not_succ_le_zero i)
    · rw [samePiece_start hp, finiteFrom_succ]
      exact ih i j (Nat.le_of_succ_le_succ hij) (Nat.lt_of_succ_lt_succ hj)
  | extend p q ps run rest hp hq ih =>
    rintro (_ | i) (_ | j) hij hj
    · exact iff_of_true samePiece_zero_zero (finiteFrom_zero_zero.mpr hp)
    · rw [samePiece_extend_zero hp, finiteFrom_zero_succ, and_iff_right hp]
      exact ih 0 j (Nat.zero_le j) (Nat.lt_of_succ_lt_succ hj)
    · exact absurd hij (Nat.not_succ_le_zero i)
    · rw [samePiece_extend hp, finiteFrom_succ]
      exact ih i j (Nat.le_of_succ_le_succ hij) (Nat.lt_of_succ_lt_succ hj)

/-! ## Segments -/

theorem sample_get? (s : Sampling) (f : Formula) (h : l ≤ s.steps) :
    (s.sample f)[l]? = some ⟨s.x l, f.eval (s.x l)⟩ := by
  rw [sample, abscissae, List.map_map, List.getElem?_map, List.getElem?_range (Nat.lt_succ_of_le h)]
  rfl

theorem finiteFrom_sample {s : Sampling} {f : Formula} (hj : j ≤ s.steps) :
    FiniteFrom (s.sample f) i j ↔ ∀ l, i ≤ l → l ≤ j → (f.eval (s.x l)).isFinite = true := by
  constructor
  · intro h l hi hl
    have hfinite : Sample.IsFinite ⟨s.x l, f.eval (s.x l)⟩ :=
      h l hi hl _ (sample_get? s f (Nat.le_trans hl hj))
    exact hfinite
  · intro h l hi hl p hp
    rw [sample_get? s f (Nat.le_trans hl hj)] at hp
    cases hp
    exact h l hi hl

/-- **Segments are the longest finite runs.** They are what a walk over the samples leaves that ends the
current run at each gap and behind the last sample. One behind the other they are the finite samples in
order, and none of them is empty. A sample lies in at most one of them, and two samples lie in the same
one exactly if the values from the one to the other, their own among them, are all finite. -/
theorem segments_longest (s : Sampling) (f : Formula) :
    s.segments f = ((s.sample f).foldl Walk.step ⟨[], []⟩).close ∧
      (s.segments f).flatten = ((s.sample f).filter fun p => p.y.isFinite) ∧
      (∀ run ∈ s.segments f, run ≠ []) ∧
      (∀ i k l, LiesIn (s.sample f) (s.segments f) i k → LiesIn (s.sample f) (s.segments f) i l →
        k = l) ∧
      ∀ i j, i ≤ j → j ≤ s.steps →
        ((∃ k, LiesIn (s.sample f) (s.segments f) i k ∧ LiesIn (s.sample f) (s.segments f) j k) ↔
          ∀ l, i ≤ l → l ≤ j → (f.eval (s.x l)).isFinite = true) := by
  have hstart : ∀ p ∈ (⟨[], []⟩ : Walk).current, p.IsFinite := fun _ hp => absurd hp List.not_mem_nil
  refine ⟨?_, ?_, ne_nil_of_mem_runs _, fun i k l => LiesIn.unique, fun i j hij hj => ?_⟩
  · rw [Walk.close_foldl hstart]
    rfl
  · rw [segments, flatten_runs]
    exact congrArg (List.filter · _) (funext fun p => Bool.decide_eq_true)
  · have hlength : j < (s.sample f).length := by
      rw [sample, abscissae, List.length_map, List.length_map, List.length_range]
      omega
    rw [← finiteFrom_sample hj]
    exact samePiece_iff (s.sample f) i j hij hlength

/-- A pole breaks a curve into two pieces. -/
theorem segments_longest_pole :
    let s : Sampling := ⟨⟨-2, 2⟩, 4⟩
    let f : Formula := ⟨.binary .div (.number 1) .var, .hyphen⟩
    s.segments f = [[⟨-2, -0.5⟩, ⟨-1, -1⟩], [⟨1, 1⟩, ⟨2, 0.5⟩]] ∧
      (∃ k, LiesIn (s.sample f) (s.segments f) 0 k ∧ LiesIn (s.sample f) (s.segments f) 1 k) ∧
      ¬ ∃ k, LiesIn (s.sample f) (s.segments f) 1 k ∧ LiesIn (s.sample f) (s.segments f) 3 k := by
  intro s f
  obtain ⟨-, -, -, -, hsame⟩ := segments_longest s f
  have hfinite : ∀ l ∈ [0, 1], (f.eval (s.x l)).isFinite = true := by decide +kernel
  have hpole : (f.eval (s.x 2)).isFinite = false := by decide +kernel
  refine ⟨by decide +kernel, (hsame 0 1 (by decide) (by decide)).mpr fun l _ hl => ?_, fun h => ?_⟩
  · exact hfinite l (by simp; omega)
  · have hbetween := (hsame 1 3 (by decide) (by decide)).mp h 2 (by decide) (by decide)
    rw [hpole] at hbetween
    cases hbetween

end Sampling

end CurvePlot

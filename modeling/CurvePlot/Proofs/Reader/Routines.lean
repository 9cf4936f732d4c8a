import CurvePlot.Proofs.Reader.Simulation

/-! Every routine of the descent does what the reader does, and so do both as a whole.

The lemmas follow the recursion of the routines: each one is about one routine, for all states that it
can be called at, and uses those about the routines that it calls. -/

namespace CurvePlot.Parser.Descent

open CurvePlot.Expr (Category)
open State (Within)

variable {s : State} {x : Except ParseError Expr} {limit : Option Nat} {c : Category} {k : Cursor}
  {frames : List Frame} {level : Level}

theorem operator?_eq_some {kind : Token.Kind} {op : BinOp} (h : c.operator? kind = some op) :
    (c = .expression ∧ (op = .add ∨ op = .sub) ∨ c = .term ∧ (op = .mul ∨ op = .div)) ∧
      kind = op.kind := by
  unfold Category.operator? at h
  split at h <;> cases h <;> exact ⟨by decide, rfl⟩

theorem operand?_eq_some {kind kind' : Token.Kind} (h : operand? kind = some kind') : kind = kind' := by
  unfold operand? at h
  split at h <;> cases h <;> rfl

theorem stops_chain {kind : Token.Kind} (hc : c = .expression ∨ c = .term)
    (h : c.operator? kind = none) (hstops : c.operand.Stops kind) : c.Stops kind := by
  obtain rfl | rfl := hc <;> exact ⟨h, hstops⟩

/-- All shorter cursors: the routine of the category does there what the reader does. -/
def AgreesBelow (limit : Option Nat) (c : Category) (n : Nat) : Prop :=
  ∀ k : Cursor, k.rest.length < n → Agrees limit c k

/-! ## Chains -/

theorem sim_chain {n : Nat} (h : AgreesBelow limit c.operand n) (hc : c = .expression ∨ c = .term)
    (hready : s.level.Ready c) (p : Parsed Expr n) (m : Nat)
    (hp : Behind x limit s.frames s.level c p.value m p.next)
    (hstops : c.operand.Stops p.next.peek.kind) (hd : p.next.depth = s.depth + m) :
    Sim x (Reads x limit s.frames s.level c) (chain limit c p m) := by
  induction hlen : p.next.rest.length using Nat.strongRecOn generalizing p m with
  | ind len ih =>
    subst hlen
    rw [chain]
    split
    · next t ht =>
      obtain ⟨s₁, b, hx, hlast, hin, hframes, hfocus, hcomp⟩ := hp
      obtain ⟨u, -, hu, -⟩ := cons_of_accept ht
      obtain ⟨l, hsteps, hdepth, hready', hcomp'⟩ := chain_steps (operator?_eq_some hu).1 hready hcomp
      refine sim_descend s₁.frames l ht hx hin ?_ ?_ hready'
        (by rcases hc with rfl | rfl <;> decide) (h _ (Nat.lt_trans t.shorter p.shorter)) ?_
      · intro u hu
        exact ⟨hsteps s₁ u hfocus rfl (operator?_eq_some hu).2, by rw [State.blamed, hfocus]⟩
      · intro s' hf hl
        rw [hdepth s s' rfl (hf.trans hframes) hl, hd]
        rfl
      · intro q hqd hq
        obtain ⟨⟨m', hbehind⟩, hstops'⟩ := hq
        rw [hframes] at hbehind
        have hlt : q.next.rest.length < p.next.rest.length := Nat.lt_trans q.shorter t.shorter
        exact ih _ hlt _ (m + 1) (hbehind.imp fun _ _ h => hcomp' _ _ _ _ h) hstops'
          (hqd.trans (congrArg (· + 1) hd)) rfl
    · next ht =>
      have hnone : c.operator? .eof = none := by rcases hc with rfl | rfl <;> rfl
      have hkind := use_peek ht hnone
      exact sim_ascend fun depth => ⟨⟨m, hp⟩, stops_chain hc hkind hstops⟩

theorem agrees_expression (h : Agrees limit .term k) (ih : AgreesBelow limit .term k.rest.length) :
    Agrees limit .expression k := by
  intro s hs
  have hready : s.level = {} := hs.ready
  have hterm : Begins limit s .term k :=
    { hs with ready := by rw [hready]; exact ⟨rfl, rfl⟩, minus := by rintro (⟨⟨⟩⟩ | ⟨⟨⟩⟩) }
  rw [read]
  refine (h s hterm).bind (balanced_read limit .term k) fun p hd hp => ?_
  obtain ⟨⟨m, hbehind⟩, hstops⟩ := hp
  exact sim_chain ih (.inl rfl) hs.ready p 0 (hbehind.imp fun _ _ h => h.term hs.ready) hstops
    (hd.trans hs.depth.symm)

theorem agrees_term (h : Agrees limit .unary k) (ih : AgreesBelow limit .unary k.rest.length) :
    Agrees limit .term k := by
  intro s hs
  have hunary : Begins limit s .unary k :=
    { hs with ready := trivial, minus := by rintro (⟨⟨⟩⟩ | ⟨⟨⟩⟩) }
  rw [read]
  refine (h s hunary).bind (balanced_read limit .unary k) fun p hd hp => ?_
  obtain ⟨⟨m, hbehind⟩, hstops⟩ := hp
  exact sim_chain ih (.inr rfl) hs.ready p 0 (hbehind.imp fun _ _ h => h.unary hs.ready) hstops
    (hd.trans hs.depth.symm)

/-! ## Prefix and power -/

theorem agrees_unary (h : Agrees limit .power k) (ih : AgreesBelow limit .unary k.rest.length) :
    Agrees limit .unary k := by
  intro s hs
  obtain ⟨closable, hfocus, hclosable⟩ := hs.operand
  rw [read]
  split
  · next t ht =>
    refine sim_descend s.frames (s.level.wait .neg) ht rfl hs.within ?_ ?_
      trivial (by decide) (ih _ t.shorter) ?_
    · intro u hu
      exact ⟨State.step_neg hfocus (only_eq_some hu), by rw [State.blamed, hfocus]⟩
    · intro s' hf hl
      rw [State.depth_wait hf hl, hs.depth]
    · intro p hd hp
      obtain ⟨⟨m, hbehind⟩, hstops⟩ := hp
      exact sim_ascend fun depth => ⟨⟨0, hbehind.imp fun _ _ => Level.Completes.neg⟩, hstops⟩
  · next ht =>
    have hminus : k.peek.kind ≠ .minus := only_eq_none (use_peek ht rfl)
    have hpower : Begins limit s .power k := { hs with ready := trivial, minus := fun _ => hminus }
    exact h s hpower

theorem agrees_power (h : Agrees limit .primary k) (ih : AgreesBelow limit .unary k.rest.length) :
    Agrees limit .power k := by
  intro s hs
  have hprimary : Begins limit s .primary k :=
    { hs with ready := trivial, minus := fun _ => hs.minus (.inl rfl) }
  rw [read]
  refine (h s hprimary).bind (balanced_read limit .primary k) fun p hd hp => ?_
  obtain ⟨⟨m, hbehind⟩, -⟩ := hp
  split
  · next t ht =>
    obtain ⟨s₁, b, hx, hlast, hin, hframes, hfocus, hlevel, rfl⟩ := hbehind
    refine sim_descend s₁.frames (s₁.level.wait (.pow p.value)) ht hx hin ?_ ?_
      trivial (by decide) (ih _ (Nat.lt_trans t.shorter p.shorter)) ?_
    · intro u hu
      exact ⟨State.step_pow hfocus (only_eq_some hu), by rw [State.blamed, hfocus]⟩
    · intro s' hf hl
      rw [State.depth_wait hf hl, State.depth_eq hframes hlevel, hs.depth, hd]
    · intro q hqd hq
      obtain ⟨⟨m, hbehind⟩, hstops⟩ := hq
      rw [hframes, hlevel] at hbehind
      exact sim_ascend fun depth => ⟨⟨0, hbehind.imp fun _ _ => Level.Completes.pow⟩, hstops⟩
  · next ht =>
    exact ⟨⟨0, hbehind.imp fun _ _ => Level.Completes.primary⟩, only_eq_none (use_peek ht rfl)⟩

/-! ## Calls -/

/-- The call ends behind arguments, the last of which the reader has just read. -/
theorem sim_rparen {n : Nat} {p : Parsed (List Expr) n} {u : Parsed Unit p.next.rest.length}
    {f : Func} {offset : Nat} {a : Expr} {as : List Expr} {m : Nat} (hvalue : p.value = a :: as)
    (hp : Behind x limit (⟨.call f offset as.length, level⟩ :: frames) {} .expression a m p.next)
    (hout : ∀ s' : State, s'.frames = frames → s'.level = level → s'.Within limit)
    (hu : p.next.accept (only .rparen) = some u) :
    Ends x limit frames level f offset (p.andThen u p.value) := by
  obtain ⟨s₁, b, hx, hlast, hin, hframes, hfocus, hexp, -⟩ := hp
  obtain ⟨v, hrest, hv, hlast'⟩ := cons_of_accept hu
  have hv : v.kind = .rparen := only_eq_some hv
  cases as with
  | nil =>
    have hsteps := State.step_close_call hfocus hframes hv
    obtain ⟨s₂, hfocus₂, hframes₂, hlevel₂, hlast₂, hin₂, hrun⟩ := hsteps.run_of_le hin hout
    rw [hrest, hrun] at hx
    rw [hexp] at hfocus₂
    exact .inl ⟨a, hvalue, s₂, _, hx, hlast₂.trans hlast'.symm, hin₂, hframes₂, hfocus₂, hlevel₂, rfl⟩
  | cons a' as =>
    refine .inr ⟨?_, ?_⟩
    · change p.value.length ≠ 1
      rw [hvalue]
      simp
    · change x = .error (.argumentCountMismatch offset p.value.length)
      rw [hx, hvalue]
      refine run_of_refuses hlast ?_
      rw [peek_of_cons hrest]
      exact State.refuses_rparen hfocus hframes hv

theorem sim_moreArguments {n : Nat} (h : AgreesBelow limit .expression n) {f : Func} {offset d : Nat}
    (hin : ∀ (s' : State) before, s'.frames = ⟨.call f offset before, level⟩ :: frames →
      s'.level = {} → s'.depth = d ∧ s'.Within limit)
    (hout : ∀ s' : State, s'.frames = frames → s'.level = level → s'.Within limit)
    (p : Parsed (List Expr) n) (a : Expr) (as : List Expr) (m : Nat) (hvalue : p.value = a :: as)
    (hp : Behind x limit (⟨.call f offset as.length, level⟩ :: frames) {} .expression a m p.next)
    (hstops : Category.expression.Stops p.next.peek.kind) (hd : p.next.depth = d) :
    Sim x (Ends x limit frames level f offset) (moreArguments limit p) := by
  induction hlen : p.next.rest.length using Nat.strongRecOn generalizing p a as m with
  | ind len ih =>
    subst hlen
    rw [moreArguments]
    split
    · next t ht =>
      obtain ⟨s₁, b, hx, hlast, hin₁, hframes, hfocus, hexp, -⟩ := hp
      obtain ⟨u, hrest, hu, hlast'⟩ := cons_of_accept ht
      have hsteps := State.step_comma hfocus hframes (only_eq_some hu)
      obtain ⟨s₂, hfocus₂, hframes₂, hlevel₂, hlast₂, hin₂, hrun⟩ :=
        hsteps.run_of_le hin₁ fun s' hf hl => (hin s' _ hf hl).2
      rw [hrest, hrun] at hx
      subst hx
      have hbegins : Begins limit s₂ .expression t.next :=
        { operand := ⟨false, hfocus₂, fun h => absurd h Bool.false_ne_true⟩
          ready := hlevel₂
          minus := by rintro (⟨⟨⟩⟩ | ⟨⟨⟩⟩)
          last := hlast₂.trans hlast'.symm
          depth := (hin s₂ _ hframes₂ hlevel₂).1.trans (hd.symm.trans (depth_of_accept ht).symm)
          within := hin₂ }
      have hagrees := h _ (Nat.lt_trans t.shorter p.shorter) s₂ hbegins
      refine hagrees.bind (balanced_read limit .expression t.next) fun q hqd hq => ?_
      obtain ⟨⟨m', hbehind⟩, hstops'⟩ := hq
      rw [hframes₂, hlevel₂] at hbehind
      have hlt : q.next.rest.length < p.next.rest.length := Nat.lt_trans q.shorter t.shorter
      have hvalue' : q.value :: p.value = q.value :: a :: as := by rw [hvalue]
      exact ih _ hlt ((p.andThen t ()).andThen q (q.value :: p.value)) q.value (a :: as) m' hvalue'
        hbehind hstops' (hqd.trans ((depth_of_accept ht).trans hd)) rfl
    · next ht =>
      refine sim_consume rfl (fun hne => ?_) fun u hu => sim_rparen hvalue hp hout hu
      obtain ⟨s₁, b, hx, hlast, -, hframes, hfocus, -⟩ := hp
      have hrefuses : s₁.Refuses limit p.next.peek (s₁.unexpected p.next.peek) :=
        State.refuses_complete hfocus hstops (fun h => absurd h hne)
          (fun h => absurd h (only_eq_none (use_peek ht rfl))) fun _ => by simp [hframes]
      rw [hx, run_of_refuses hlast hrefuses]
      simp only [State.unexpected, hfocus, hframes, State.expected]

theorem sim_arguments (h : Agrees limit .expression k)
    (ih : AgreesBelow limit .expression k.rest.length) {f : Func} {offset : Nat}
    (hfocus : s.focus = .operand true) (hframes : s.frames = ⟨.call f offset 0, level⟩ :: frames)
    (hlevel : s.level = {}) (hlast : s.last = k.last) (hd : s.depth = k.depth)
    (hin : ∀ (s' : State) before, s'.frames = ⟨.call f offset before, level⟩ :: frames →
      s'.level = {} → s'.depth = k.depth ∧ s'.Within limit)
    (hout : ∀ s' : State, s'.frames = frames → s'.level = level → s'.Within limit) :
    Sim (s.run limit k.rest) (Ends (s.run limit k.rest) limit frames level f offset)
      (arguments limit k) := by
  rw [arguments]
  split
  · next t ht =>
    obtain ⟨u, hrest, hu, -⟩ := cons_of_accept ht
    refine .inr ⟨Nat.zero_ne_one, run_of_refuses hlast ?_⟩
    rw [peek_of_cons hrest]
    exact State.refuses_rparen_closable hfocus hframes (only_eq_some hu)
  · next ht =>
    have hbegins : Begins limit s .expression k :=
      { operand := ⟨true, hfocus, fun _ => only_eq_none (use_peek ht rfl)⟩
        ready := hlevel
        minus := by rintro (⟨⟨⟩⟩ | ⟨⟨⟩⟩)
        last := hlast
        depth := hd
        within := (hin s 0 hframes hlevel).2 }
    refine (h s hbegins).bind (balanced_read limit .expression k) fun p hpd hp => ?_
    obtain ⟨⟨m, hbehind⟩, hstops⟩ := hp
    rw [hframes, hlevel] at hbehind
    exact sim_moreArguments ih hin hout _ p.value [] m rfl hbehind hstops hpd

theorem sim_call (ih : AgreesBelow limit .expression k.rest.length) {f : Func} {offset : Nat}
    (hfocus : s.focus = .name f offset) (hlast : s.last = k.last) (hd : s.depth = k.depth)
    (hin : s.Within limit) :
    Sim (s.run limit k.rest) (Reads (s.run limit k.rest) limit s.frames s.level .primary)
      (call limit f offset k) := by
  have hout : ∀ s' : State, s'.frames = s.frames → s'.level = s.level → s'.Within limit := by
    intro s' hf hl
    rwa [Within, State.depth_eq hf hl]
  rw [call]
  refine sim_consume rfl (fun hne => run_of_refuses hlast (State.refuses_name hfocus hne)) fun t ht => ?_
  refine sim_permit (.operand true) (⟨.call f offset 0, s.level⟩ :: s.frames) {} ht rfl hin ?_ ?_ ?_
  · intro u hu _
    exact ⟨State.step_call hfocus (only_eq_some hu), by rw [State.blamed, hfocus]⟩
  · intro s' hf hl
    rw [State.depth_inside hf hl, hd]
  · intro s' hfocus' hframes' hlevel' hlast' hd' hin' hx
    have hinside : ∀ (s₁ : State) before, s₁.frames = ⟨.call f offset before, s.level⟩ :: s.frames →
        s₁.level = {} → s₁.depth = t.next.deeper.depth ∧ s₁.Within limit := by
      intro s₁ before hf hl
      have hd₁ : s₁.depth = s'.depth := by
        rw [State.depth_inside hf hl, State.depth_inside hframes' hlevel']
      rw [Within, hd₁]
      exact ⟨hd', hin'⟩
    have hsim := sim_arguments (ih t.next.deeper t.shorter) (fun k' hk' => ih k' (Nat.lt_trans hk' t.shorter))
      hfocus' hframes' hlevel' hlast' hd' hinside hout
    rw [hx]
    refine hsim.bind (balanced_arguments limit t.next.deeper) fun p hp hends => ?_
    have hdepth : (t.andThen p p.value).next.depth = k.depth + 1 := by
      change p.next.depth = k.depth + 1
      rw [hp, Cursor.deeper, depth_of_accept ht]
    have hascend : Sim (s'.run limit t.next.rest)
        (Ends (s'.run limit t.next.rest) limit s.frames s.level f offset)
        ((t.andThen p p.value).ascend 1) := sim_ascend fun _ => hends
    refine hascend.bind (balanced_ascend hdepth) fun q _ hq => ?_
    split
    · next a hvalue =>
      obtain ⟨a', hvalue', hbehind⟩ | ⟨hne, -⟩ := hq
      · cases hvalue.symm.trans hvalue'
        exact ⟨⟨0, hbehind⟩, trivial⟩
      · exact absurd (congrArg List.length hvalue) hne
    · next hvalue =>
      obtain ⟨a', hvalue', -⟩ | ⟨-, herror⟩ := hq
      · exact absurd hvalue' (hvalue a')
      · exact herror

/-! ## Operands -/

/-- A token that is an operand by itself. -/
theorem reads_operand {α : Type} {use : Token.Kind → Option α} {t : Parsed α k.rest.length} {a : Expr}
    (ht : k.accept use = some t) (hs : s.Within limit)
    (hstep : ∀ u, use u.kind = some t.value → s.Steps u (.complete a) s.frames s.level) :
    Reads (s.run limit k.rest) limit s.frames s.level .primary (t.set a) := by
  obtain ⟨u, hrest, hu, hlast⟩ := cons_of_accept ht
  have hin : ∀ s' : State, s'.frames = s.frames → s'.level = s.level → s'.Within limit := by
    intro s' hf hl
    rwa [Within, State.depth_eq hf hl]
  obtain ⟨s', hfocus, hframes, hlevel, hlast', hin', hrun⟩ := (hstep u hu).run_of_le hs hin
  have hx : s.run limit k.rest = s'.run limit t.next.rest :=
    (congrArg (s.run limit) hrest).trans (hrun _)
  exact ⟨⟨0, s', a, hx, hlast'.trans hlast.symm, hin', hframes, hfocus, hlevel, rfl⟩, trivial⟩

/-- The parenthesis behind a phrase that is an operand together with it. -/
theorem sim_close {β : Type} {m n : Nat} {p : Parsed Expr n} {post : Parsed β m → Prop}
    {f : Parsed Unit p.next.rest.length → Result β m}
    (hp : Reads x limit (⟨.group, level⟩ :: frames) {} .expression p)
    (hout : ∀ s' : State, s'.frames = frames → s'.level = level → s'.Within limit)
    (hf : ∀ u, Behind x limit frames level .primary p.value 0 u.next → Sim x post (f u)) :
    Sim x post ((p.next.consume .rparen .closeParen).bind f) := by
  obtain ⟨⟨m, s₁, b, hx, hlast, hin, hframes, hfocus, hexp, -⟩, hstops⟩ := hp
  refine sim_consume rfl (fun hne => ?_) fun u hu => ?_
  · have hrefuses : s₁.Refuses limit p.next.peek (s₁.unexpected p.next.peek) :=
      State.refuses_complete hfocus hstops (fun h => absurd h hne)
        (fun _ => by rw [hframes]; nofun) fun _ => by rw [hframes]; nofun
    rw [hx, run_of_refuses hlast hrefuses]
    simp only [State.unexpected, hfocus, hframes, State.expected]
  · obtain ⟨v, hrest, hv, hlast'⟩ := cons_of_accept hu
    obtain ⟨s₂, hfocus₂, hframes₂, hlevel₂, hlast₂, hin₂, hrun⟩ :=
      (State.step_close_group hfocus hframes (only_eq_some hv)).run_of_le hin hout
    rw [hrest, hrun] at hx
    exact hf u ⟨s₂, _, hx, hlast₂.trans hlast'.symm, hin₂, hframes₂, hfocus₂, hlevel₂, hexp⟩

theorem agrees_primary (ih : AgreesBelow limit .expression k.rest.length) :
    Agrees limit .primary k := by
  intro s hs
  obtain ⟨closable, hfocus, hclosable⟩ := hs.operand
  have hout : ∀ s' : State, s'.frames = s.frames → s'.level = s.level → s'.Within limit := by
    intro s' hf hl
    rw [Within, State.depth_eq hf hl]
    exact hs.within
  rw [read]
  split
  · next ht =>
    refine run_of_refuses hs.last ?_
    exact State.refuses_operand hfocus (use_peek ht rfl) (hs.minus (.inr rfl)) hclosable
  · next t ht =>
    obtain ⟨u, hrest, hu, hlast⟩ := cons_of_accept ht
    split
    · next v hv =>
      refine reads_operand ht hs.within fun u hu => ?_
      exact State.step_number hfocus ((operand?_eq_some hu).trans hv)
    · next name hname =>
      have hkind : u.kind = .ident name := (operand?_eq_some hu).trans hname
      split
      · next a ha =>
        refine reads_operand ht hs.within fun u hu => ?_
        exact State.step_operand hfocus ((operand?_eq_some hu).trans hname) ha
      · next f hf =>
        obtain ⟨s', hfocus', hframes, hlevel, hlast', hin', hrun⟩ :=
          (State.step_function hfocus hkind hf).run_of_le hs.within hout
        have hd : s'.depth = t.next.depth := by
          rw [State.depth_eq hframes hlevel, hs.depth, depth_of_accept ht]
        have hcall := sim_call (fun k' hk' => ih k' (Nat.lt_trans hk' t.shorter)) (hlast ▸ hfocus')
          (hlast'.trans hlast.symm) hd hin'
        rw [← hrun, ← hrest, hframes, hlevel] at hcall
        exact hcall.bind (balanced_call limit f _ _) fun p _ hp => hp
      · next hname =>
        refine run_of_refuses hs.last ?_
        rw [peek_of_cons hrest, hlast]
        exact State.refuses_unknown hfocus hkind hname
    · next hnumber hident =>
      have hparen : t.value = .lparen := by
        unfold operand? at hu
        split at hu
        · exact absurd (Option.some.inj hu).symm (hnumber _)
        · exact absurd (Option.some.inj hu).symm (hident _)
        · exact (Option.some.inj hu).symm
        · cases hu
      refine sim_descend (⟨.group, s.level⟩ :: s.frames) {} ht rfl hs.within ?_ ?_
        rfl (by decide) (ih _ t.shorter) ?_
      · intro u hu
        exact ⟨State.step_group hfocus ((operand?_eq_some hu).trans hparen),
          by rw [State.blamed, hfocus]⟩
      · intro s' hf hl
        rw [State.depth_inside hf hl, hs.depth]
      · intro p hd hp
        refine sim_close hp hout fun u hbehind => ?_
        exact sim_ascend fun depth => ⟨⟨0, hbehind⟩, trivial⟩

/-! ## All routines -/

theorem agrees_read (limit : Option Nat) (c : Category) (k : Cursor) : Agrees limit c k := by
  induction hlen : k.rest.length using Nat.strongRecOn generalizing c k with
  | ind len ih =>
    have hbelow (c : Category) : AgreesBelow limit c k.rest.length := fun k' hk' =>
      ih _ (hlen ▸ hk') c k' rfl
    have hprimary := agrees_primary (hbelow .expression)
    have hpower := agrees_power hprimary (hbelow .unary)
    have hunary := agrees_unary hpower (hbelow .unary)
    have hterm := agrees_term hunary (hbelow .unary)
    cases c with
    | expression => exact agrees_expression hterm (hbelow .term)
    | term => exact hterm
    | unary => exact hunary
    | power => exact hpower
    | primary => exact hprimary

theorem ofTokens_of_peek_eof {ts : List Token} (h : (⟨ts, 0, 0⟩ : Cursor).peek.kind = .eof) :
    Expr.ofTokens limit ts = .error .emptyExpression := by
  cases ts with
  | nil => rfl
  | cons t ts => exact Expr.ofTokens_of_eof h

theorem ofTokens_of_peek_ne_eof {ts : List Token} (h : (⟨ts, 0, 0⟩ : Cursor).peek.kind ≠ .eof) :
    Expr.ofTokens limit ts = ({} : State).run limit ts := by
  cases ts with
  | nil => exact absurd rfl h
  | cons t ts => exact Expr.ofTokens_cons h

/-- **The descent gives the results of the reader**, and its counter does not fall below zero. -/
theorem descent_eq_ofTokens (limit : Option Nat) (ts : List Token) :
    descent limit ts = (Expr.ofTokens limit ts).mapError .refused := by
  unfold descent
  dsimp only
  split
  · next heof =>
    rw [ofTokens_of_peek_eof heof]
    rfl
  · next hne =>
    rw [ofTokens_of_peek_ne_eof hne]
    have hbegins : Begins limit {} .expression { rest := ts } :=
      { operand := ⟨false, rfl, fun h => absurd h Bool.false_ne_true⟩
        ready := rfl
        minus := by rintro (⟨⟨⟩⟩ | ⟨⟨⟩⟩)
        last := rfl
        depth := rfl
        within := by cases limit <;> simp [Within, State.depth, Level.depth] }
    have hagrees := agrees_read limit .expression { rest := ts } {} hbegins
    have hbalanced := balanced_read limit .expression { rest := ts }
    cases hread : read limit .expression { rest := ts } with
    | error e =>
      rw [hread] at hagrees hbalanced
      cases e with
      | refused e =>
        have hx : ({} : State).run limit ts = .error e := hagrees
        rw [hx]
        rfl
      | underflow => exact absurd rfl hbalanced
    | ok p =>
      rw [hread] at hagrees
      obtain ⟨⟨m, s, b, hx, hlast, -, hframes, hfocus, hexp, -⟩, hstops⟩ := hagrees
      have hx : ({} : State).run limit ts = s.run limit p.next.rest := hx
      have hframes : s.frames = [] := hframes
      rw [hx]
      change (if p.next.peek.kind = .eof then Except.ok p.value else _) = _
      split
      · next heof =>
        obtain ⟨offset, hrun⟩ := run_of_peek_eof s limit heof
        simp only [hrun, State.finish, hfocus, hframes, hexp]
        rfl
      · next hne =>
        have hrefuses : s.Refuses limit p.next.peek (s.unexpected p.next.peek) :=
          State.refuses_complete hfocus hstops (fun _ => hframes) (fun _ => by simp [hframes])
            fun h => absurd h hne
        rw [run_of_refuses hlast hrefuses]
        simp only [State.unexpected, hfocus, hframes]
        rfl

end CurvePlot.Parser.Descent

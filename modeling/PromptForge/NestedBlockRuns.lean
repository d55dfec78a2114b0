import PromptForge.NestedBlocks

namespace PromptForge.NestedBlocks
open Savepoints

universe u
variable {σ : Type u}

def apply (effects : List (Effect σ)) (tables : σ) : σ := effects.foldl (fun tables e => e.write tables) tables

def sessionsOf (effects : List (Effect σ)) : List String := effects.filterMap Effect.session

def insertAll (set : List String) (sessions : List String) : List String :=
  sessions.foldl (fun set sessionId => set.insert sessionId) set

def announced (host : Host) (effects : List (Effect σ)) : List (Happening σ) :=
  (host.order (insertAll [] (sessionsOf effects))).flatMap fun sessionId =>
    host.observers.map fun observer => .notified observer sessionId

def published (host : Host) : σ → List (List (Effect σ)) → List (Happening σ)
  | _, [] => []
  | tables, effects :: rest =>
    .committed (apply effects tables) :: (announced host effects ++ published host (apply effects tables) rest)

@[simp] lemma apply_nil (tables : σ) : apply [] tables = tables := rfl

@[simp] lemma apply_append (effects effects' : List (Effect σ)) (tables : σ) :
    apply (effects ++ effects') tables = apply effects' (apply effects tables) := List.foldl_append ..

@[simp] lemma sessionsOf_append (effects effects' : List (Effect σ)) :
    sessionsOf (effects ++ effects') = sessionsOf effects ++ sessionsOf effects' := List.filterMap_append ..

@[simp] lemma insertAll_nil (set : List String) : insertAll set [] = set := rfl

@[simp] lemma insertAll_append (set sessions sessions' : List String) :
    insertAll set (sessions ++ sessions') = insertAll (insertAll set sessions) sessions' := List.foldl_append ..

lemma mem_insertAll {set sessions : List String} {sessionId : String} :
    sessionId ∈ insertAll set sessions ↔ sessionId ∈ set ∨ sessionId ∈ sessions := by
  induction sessions generalizing set with
  | nil => simp
  | cons s sessions ih =>
    change sessionId ∈ insertAll (set.insert s) sessions ↔ _
    rw [ih, List.mem_insert_iff, List.mem_cons]
    tauto

lemma nodup_insertAll {set : List String} (h : set.Nodup) (sessions : List String) : (insertAll set sessions).Nodup := by
  induction sessions generalizing set with
  | nil => exact h
  | cons s sessions ih => exact ih h.insert

lemma published_append (host : Host) (tables : σ) (blocks blocks' : List (List (Effect σ))) :
    published host tables (blocks ++ blocks') =
      published host tables blocks ++ published host (apply blocks.flatten tables) blocks' := by
  induction blocks generalizing tables with
  | nil => rfl
  | cons effects blocks ih => simp [published, ih]

lemma mem_announced {host : Host} {effects : List (Effect σ)} {observer sessionId : String} :
    Happening.notified observer sessionId ∈ announced host effects ↔
      observer ∈ host.observers ∧ sessionId ∈ sessionsOf effects := by
  have horder (s : String) : s ∈ host.order (insertAll [] (sessionsOf effects)) ↔ s ∈ sessionsOf effects := by
    rw [(host.perm _).mem_iff, mem_insertAll]
    simp
  unfold announced
  rw [List.mem_flatMap]
  constructor
  · rintro ⟨s, hs, h⟩
    obtain ⟨o, ho, heq⟩ := List.mem_map.1 h
    cases heq
    exact ⟨ho, (horder _).1 hs⟩
  · rintro ⟨ho, hs⟩
    exact ⟨sessionId, (horder _).2 hs, List.mem_map_of_mem ho⟩

lemma mem_published {host : Host} {tables : σ} {blocks : List (List (Effect σ))} {observer sessionId : String} :
    Happening.notified observer sessionId ∈ published host tables blocks ↔
      observer ∈ host.observers ∧ sessionId ∈ sessionsOf blocks.flatten := by
  induction blocks generalizing tables with
  | nil => simp [published, sessionsOf]
  | cons effects blocks ih =>
    rw [published, List.mem_cons, List.mem_append, mem_announced, ih, List.flatten_cons, sessionsOf_append, List.mem_append]
    simp only [reduceCtorEq, false_or]
    tauto

structure Inside (m : Thread σ) (c : Connection σ) (m' : Thread σ) (t : Executed (Effect σ)) (sessions : List String) :
    Prop where
  connection : m'.connection = some ⟨apply t.survivors c.working, c.savepoints⟩
  committed : m'.committed = m.committed
  log : m'.log = m.log
  allowJoin : m'.allowJoin = m.allowJoin
  notifications : m'.notifications = insertAll m.notifications sessions

structure Outside (host : Host) (m m' : Thread σ) (t : Executed (Effect σ)) : Prop where
  connection : m'.connection = none
  committed : m'.committed = apply t.survivors m.committed
  log : m'.log = m.log ++ published host m.committed t.outermost
  allowJoin : m'.allowJoin = m.allowJoin
  blocks : t.outermost.flatten = t.survivors

lemma inside_nil {m : Thread σ} {c : Connection σ} (h : m.connection = some c) : Inside m c m .nil [] where
  connection := h
  committed := rfl
  log := rfl
  allowJoin := rfl
  notifications := rfl

lemma outside_nil {host : Host} {m : Thread σ} (h : m.connection = none) : Outside host m m .nil where
  connection := h
  committed := rfl
  log := (List.append_nil _).symm
  allowJoin := rfl
  blocks := rfl

lemma Inside.append {m m₁ m₂ : Thread σ} {c : Connection σ} {t t' : Executed (Effect σ)}
    (h : Inside m c m₁ t (sessionsOf t.survivors))
    (h' : Inside m₁ ⟨apply t.survivors c.working, c.savepoints⟩ m₂ t' (sessionsOf t'.survivors)) :
    Inside m c m₂ (t.append t') (sessionsOf (t.append t').survivors) where
  connection := by
    rw [h'.connection, Executed.survivors_append, apply_append]
  committed := h'.committed.trans h.committed
  log := h'.log.trans h.log
  allowJoin := h'.allowJoin.trans h.allowJoin
  notifications := by
    rw [h'.notifications, h.notifications, Executed.survivors_append, sessionsOf_append, insertAll_append]

lemma Outside.append {host : Host} {m m₁ m₂ : Thread σ} {t t' : Executed (Effect σ)} (h : Outside host m m₁ t)
    (h' : Outside host m₁ m₂ t') : Outside host m m₂ (t.append t') where
  connection := h'.connection
  committed := by
    rw [h'.committed, h.committed, Executed.survivors_append, apply_append]
  log := by
    rw [h'.log, h.log, h.committed, Executed.outermost_append, published_append, h.blocks, List.append_assoc]
  allowJoin := h'.allowJoin.trans h.allowJoin
  blocks := by
    rw [Executed.outermost_append, Executed.survivors_append, List.flatten_append, h.blocks, h'.blocks]

section Blocks
variable {host : Host} {α : Type} {weather : Weather} {m m₂ : Thread σ} {c : Connection σ}

lemma notify_inside (h : m.connection = some c) (sessionId : String) :
    notifyObservers host sessionId m = { m with notifications := m.notifications.insert sessionId } := by
  unfold notifyObservers
  rw [if_pos (by rw [h]; rfl)]

lemma notify_outside (h : m.connection = none) (sessionId : String) :
    notifyObservers host sessionId m =
      { m with log := m.log ++ host.observers.map fun observer => .notified observer sessionId } := by
  unfold notifyObservers
  rw [if_neg (by rw [h]; nofun)]

lemma notify_all (sessions : List String) (h : m.connection = none) :
    sessions.foldl (fun m sessionId => notifyObservers host sessionId m) m =
      { m with log := m.log ++ sessions.flatMap fun sessionId =>
        host.observers.map fun observer => .notified observer sessionId } := by
  induction sessions generalizing m with
  | nil => simp
  | cons s sessions ih =>
    rw [List.foldl_cons, notify_outside h, ih (by exact h)]
    simp [List.append_assoc]

lemma enter_inside (hc : m.connection = some c) :
    (∃ drawn, enter host weather m = (none, { m with drawn := drawn })) ∨
    ∃ name drawn, enter host weather m = (some (.joined name m.notifications),
      { m with connection := some ⟨c.working, (name, c.working) :: c.savepoints⟩, drawn := drawn }) := by
  unfold enter
  rw [hc]
  dsimp only
  split
  · exact .inl ⟨m.drawn, by rw [← hc]⟩
  · split
    · exact .inl ⟨m.drawn + 1, by rw [← hc]⟩
    · refine .inr ⟨"joined_" ++ host.names m.drawn, m.drawn + 1, ?_⟩
      unfold Thread.onConnection
      rfl

lemma enter_outside (hc : m.connection = none) :
    enter host weather m = (none, m) ∨
    enter host weather m = (some .owned, { m with connection := some ⟨m.committed, []⟩, notifications := [] }) := by
  unfold enter
  rw [hc]
  dsimp only
  split
  · exact .inl rfl
  · exact .inr rfl

lemma exit_joined {name : String} {tables kept : σ} {outer : List (String × σ)} {before : List String}
    (h : m₂.connection = some ⟨tables, (name, kept) :: outer⟩) (raised : Bool) :
    exit host weather raised m₂ (.joined name before) =
      (raised, { m₂ with
        connection := some ⟨if raised then kept else tables, outer⟩
        notifications := if raised then before else m₂.notifications }) := by
  cases raised
  · simp [exit, Thread.onConnection, h, Connection.release_own]
  · simp [exit, Thread.onConnection, h, Connection.release_own, Connection.rollbackTo_own]

lemma exit_owned {tables : σ} (h : m₂.connection = some ⟨tables, []⟩) (raised : Bool) :
    exit host weather raised m₂ .owned = (true, { m₂ with connection := none }) ∨
    raised = false ∧ exit host weather raised m₂ .owned = (false, { m₂ with
      committed := tables
      connection := none
      log := m₂.log ++ .committed tables :: (host.order m₂.notifications).flatMap fun sessionId =>
        host.observers.map fun observer => .notified observer sessionId }) := by
  have htables : m₂.tables = tables := by
    unfold Thread.tables
    rw [h]
    rfl
  unfold exit
  dsimp only
  split
  · exact .inl rfl
  · rename_i hends
    refine .inr ⟨by cases raised <;> simp_all, ?_⟩
    rw [notify_all _ rfl, htables]
    simp [List.append_assoc]

lemma block_inside {body : Run σ α} {sessions : Executed (Effect σ) → List String}
    (hbody : ∀ m c, m.connection = some c → Inside m c (body m).2.1 (body m).2.2 (sessions (body m).2.2))
    (hc : m.connection = some c) :
    (∃ (m' : Thread σ) (t : Executed (Effect σ)), block host weather body m = (none, m', .block false t .nil) ∧ Inside m c m' (.block false t .nil) []) ∨
    ∃ (m₁ : Thread σ) (c₁ : Connection σ) (value : α) (m' m₂ : Thread σ) (t : Executed (Effect σ)), m₁.connection = some c₁ ∧ c₁.working = c.working ∧ body m₁ = (some value, m₂, t) ∧
      block host weather body m = (some value, m', .block true t .nil) ∧ Inside m c m' (.block true t .nil) (sessions t) := by
  unfold block
  rcases @enter_inside _ host weather m c hc with ⟨drawn, henter⟩ | ⟨name, drawn, henter⟩
  · rw [henter]
    exact .inl ⟨_, .nil, rfl, hc, rfl, rfl, rfl, rfl⟩
  · rw [henter]
    dsimp only
    have hran := hbody { m with connection := some ⟨c.working, (name, c.working) :: c.savepoints⟩, drawn := drawn } _ rfl
    rcases hresult : body { m with connection := some ⟨c.working, (name, c.working) :: c.savepoints⟩, drawn := drawn }
      with ⟨value, m₂, t⟩
    rw [hresult] at hran
    have hexit := @exit_joined _ host weather m₂ name _ _ _ m.notifications hran.connection value.isNone
    dsimp only
    rw [hexit]
    cases value with
    | none => exact .inl ⟨_, t, rfl, rfl, hran.committed, hran.log, hran.allowJoin, rfl⟩
    | some a =>
      refine .inr ⟨_, ⟨c.working, (name, c.working) :: c.savepoints⟩, a, _, m₂, t, rfl, rfl, hresult, rfl, ?_, hran.committed, hran.log, hran.allowJoin, ?_⟩
      · change some (⟨apply t.survivors c.working, c.savepoints⟩ : Connection σ) =
          some ⟨apply (t.survivors ++ []) c.working, c.savepoints⟩
        rw [List.append_nil]
      · exact hran.notifications

lemma block_outside {body : Run σ α} {sessions : Executed (Effect σ) → List String}
    (hbody : ∀ m c, m.connection = some c → Inside m c (body m).2.1 (body m).2.2 (sessions (body m).2.2))
    (hc : m.connection = none) :
    (∃ (m' : Thread σ) (t : Executed (Effect σ)), block host weather body m = (none, m', .block false t .nil) ∧ Outside host m m' (.block false t .nil)) ∨
    ∃ (m₁ : Thread σ) (c₁ : Connection σ) (value : α) (m' m₂ : Thread σ) (t : Executed (Effect σ)), m₁.connection = some c₁ ∧ c₁.working = m.committed ∧ body m₁ = (some value, m₂, t) ∧
      block host weather body m = (some value, m', .block true t .nil) ∧ m'.connection = none ∧
      m'.allowJoin = m.allowJoin ∧ m'.committed = apply t.survivors m.committed ∧
      m'.log = m.log ++ .committed m'.committed :: (host.order (insertAll [] (sessions t))).flatMap fun sessionId =>
        host.observers.map fun observer => .notified observer sessionId := by
  unfold block
  rcases @enter_outside _ host weather m hc with henter | henter
  · rw [henter]
    exact .inl ⟨_, .nil, rfl, hc, rfl, (List.append_nil _).symm, rfl, rfl⟩
  · rw [henter]
    dsimp only
    have hran := hbody { m with connection := some ⟨m.committed, []⟩, notifications := [] } _ rfl
    rcases hresult : body { m with connection := some ⟨m.committed, []⟩, notifications := [] } with ⟨value, m₂, t⟩
    rw [hresult] at hran
    dsimp only
    rcases @exit_owned _ host weather m₂ _ hran.connection value.isNone with hexit | ⟨hsome, hexit⟩
    · rw [hexit]
      exact .inl ⟨_, t, rfl, rfl, hran.committed, hran.log.trans (List.append_nil _).symm, hran.allowJoin, rfl⟩
    · rw [hexit]
      cases value with
      | none => cases hsome
      | some a =>
        refine .inr ⟨_, _, a, _, m₂, t, rfl, rfl, hresult, rfl, rfl, hran.allowJoin, rfl, ?_⟩
        change m₂.log ++ _ = _
        rw [hran.log, hran.notifications]

end Blocks

structure Works {α : Type} (host : Host) (run : Run σ α) : Prop where
  inside : ∀ m c, m.connection = some c → Inside m c (run m).2.1 (run m).2.2 (sessionsOf (run m).2.2.survivors)
  outside : ∀ m, m.connection = none → Outside host m (run m).2.1 (run m).2.2

section Statements
variable {host : Host} {α : Type}

lemma effects_survivors (effects : List (Effect σ)) :
    (effects.foldr Executed.effect Executed.nil).survivors = effects ∧
      (effects.foldr Executed.effect Executed.nil).outermost = [] := by
  induction effects with
  | nil => exact ⟨rfl, rfl⟩
  | cons e effects ih => exact ⟨congrArg (e :: ·) ih.1, ih.2⟩

lemma writeTables_outside (f : σ → Option (α × σ × List (Effect σ))) {m : Thread σ} (h : m.connection = none) :
    writeTables f m = (none, m, .nil) := by
  unfold writeTables
  rw [h]
  rfl

lemma writeTables_cases (f : σ → Option (α × σ × List (Effect σ))) {m : Thread σ} {c : Connection σ}
    (h : m.connection = some c) :
    writeTables f m = (none, m, .nil) ∨ ∃ value tables effects, f c.working = some (value, tables, effects) ∧
      writeTables f m = (some value, { m with connection := some { c with working := tables } },
        effects.foldr .effect .nil) := by
  unfold writeTables
  rw [h, Option.bind_some]
  rcases f c.working with _ | ⟨value, tables, effects⟩
  · exact .inl rfl
  · refine .inr ⟨value, tables, effects, rfl, ?_⟩
    simp [Thread.onConnection, h]

lemma works_write (f : σ → Option σ) : Works host (exec host (.write f)) where
  inside m c hc := by
    change Inside m c (writeTables _ m).2.1 (writeTables _ m).2.2 (sessionsOf (writeTables _ m).2.2.survivors)
    rcases writeTables_cases (fun tables => (f tables).map fun tables' => ((), tables', [⟨written f, none⟩])) hc with
      h | ⟨value, tables, effects, hf, h⟩
    · rw [h]
      exact inside_nil hc
    · rw [h]
      obtain ⟨tables', hf', heq⟩ := Option.map_eq_some_iff.1 hf
      obtain ⟨-, rfl, rfl⟩ := heq
      refine ⟨?_, rfl, rfl, rfl, rfl⟩
      change some _ = some (⟨written f c.working, c.savepoints⟩ : Connection σ)
      unfold written
      rw [hf']
      rfl
  outside m hc := by
    change Outside host m (writeTables _ m).2.1 (writeTables _ m).2.2
    rw [writeTables_outside _ hc]
    exact outside_nil hc

lemma works_block {weather : Weather} {body : Run σ α} (h : Works host body) : Works host (block host weather body) where
  inside m c hc := by
    rcases @block_inside _ host _ weather m c body (fun t => sessionsOf t.survivors) h.inside hc with
      ⟨m', t, hb, hin⟩ | ⟨m₁, c₁, value, m', m₂, t, -, -, -, hb, hin⟩
    · rw [hb]
      exact hin
    · rw [hb]
      have hsurvivors : (Executed.block true t .nil).survivors = t.survivors := List.append_nil _
      rw [hsurvivors]
      exact hin
  outside m hc := by
    rcases @block_outside _ host _ weather m body (fun t => sessionsOf t.survivors) h.inside hc with
      ⟨m', t, hb, hout⟩ | ⟨m₁, c₁, value, m', m₂, t, -, -, -, hb, hclosed, hallow, hcommitted, hlog⟩
    · rw [hb]
      exact hout
    · rw [hb]
      have hsurvivors : (Executed.block true t .nil).survivors = t.survivors := List.append_nil _
      refine ⟨hclosed, ?_, ?_, hallow, ?_⟩
      · rw [hsurvivors]
        exact hcommitted
      · change m'.log = _
        rw [hlog, hcommitted]
        change _ = m.log ++ .committed (apply t.survivors m.committed) :: (announced host t.survivors ++ [])
        rw [List.append_nil]
        rfl
      · rfl

lemma works_atomic {weather : Weather} {body : Run σ α} (h : Works host body) :
    Works host (atomicBlock host weather body) where
  inside m c hc := by
    have hin := (@works_block _ host _ weather body h).inside { m with allowJoin := true } c hc
    exact ⟨hin.connection, hin.committed, hin.log, rfl, hin.notifications⟩
  outside m hc := by
    have hout := (@works_block _ host _ weather body h).outside { m with allowJoin := true } hc
    exact ⟨hout.connection, hout.committed, hout.log, rfl, hout.blocks⟩

/-- The body of `append_event` stores its event and says so, or finds it there and does nothing. -/
lemma appendBody_inside (sessionId : String) (tx : σ → Option (Appended σ)) (m : Thread σ) (c : Connection σ)
    (hc : m.connection = some c) :
    Inside m c (appendBody sessionId tx m).2.1 (appendBody sessionId tx m).2.2 [] ∧
      ∀ value, (appendBody sessionId tx m).1 = some value →
        (appendBody sessionId tx m).2.2.survivors = if value then [⟨appended tx, some sessionId⟩] else [] := by
  unfold appendBody
  rcases writeTables_cases _ hc with h | ⟨value, tables, effects, hf, h⟩
  · rw [h]
    exact ⟨inside_nil hc, nofun⟩
  · rw [h]
    obtain ⟨result, hresult, heq⟩ := Option.map_eq_some_iff.1 hf
    have hsurvivors := (effects_survivors effects).1
    cases result with
    | replayed =>
      obtain ⟨rfl, rfl, rfl⟩ := heq
      refine ⟨⟨rfl, rfl, rfl, rfl, rfl⟩, fun value hvalue => ?_⟩
      obtain rfl := Option.some.inj hvalue
      rfl
    | stored tables' =>
      obtain ⟨rfl, rfl, rfl⟩ := heq
      refine ⟨⟨?_, rfl, rfl, rfl, rfl⟩, fun value hvalue => ?_⟩
      · change some _ = some (⟨appended tx c.working, c.savepoints⟩ : Connection σ)
        unfold appended
        rw [hresult]
      · obtain rfl := Option.some.inj hvalue
        rfl

lemma works_append (weather : Weather) (sessionId : String) (tx : σ → Option (Appended σ)) :
    Works host (exec host (.append weather sessionId tx)) where
  inside m c hc := by
    have hstep : exec host (.append weather sessionId tx) m = appendEvent host weather sessionId tx m := rfl
    rw [hstep]
    unfold appendEvent
    rcases @block_inside _ host _ weather m c (appendBody sessionId tx) (fun _ => [])
      (fun m c hc => (appendBody_inside sessionId tx m c hc).1) hc with
      ⟨m', t, hb, hin⟩ | ⟨m₁, c₁, value, m', m₂, t, hc₁, -, hbody, hb, hin⟩
    · rw [hb]
      exact hin
    · rw [hb]
      have hvalue := (appendBody_inside sessionId tx m₁ c₁ hc₁).2
      rw [hbody] at hvalue
      have hsurvivors : (Executed.block true t .nil).survivors = t.survivors := List.append_nil _
      rw [hvalue value rfl] at hsurvivors
      cases value with
      | false =>
        dsimp only
        rw [hsurvivors]
        exact hin
      | true =>
        dsimp only
        rw [hsurvivors, notify_inside hin.connection]
        refine ⟨hin.connection, hin.committed, hin.log, hin.allowJoin, ?_⟩
        change m'.notifications.insert sessionId = m.notifications.insert sessionId
        rw [hin.notifications]
        rfl
  outside m hc := by
    change Outside host m (appendEvent host weather sessionId tx m).2.1 (appendEvent host weather sessionId tx m).2.2
    unfold appendEvent
    rcases @block_outside _ host _ weather m (appendBody sessionId tx) (fun _ => [])
      (fun m c hc => (appendBody_inside sessionId tx m c hc).1) hc with
      ⟨m', t, hb, hout⟩ | ⟨m₁, c₁, value, m', m₂, t, hc₁, -, hbody, hb, hclosed, hallow, hcommitted, hlog⟩
    · rw [hb]
      exact hout
    · rw [hb]
      have hvalue := (appendBody_inside sessionId tx m₁ c₁ hc₁).2
      rw [hbody] at hvalue
      have hvalue := hvalue value rfl
      have hsurvivors : (Executed.block true t .nil).survivors = t.survivors := List.append_nil _
      have hquiet : host.order (insertAll [] []) = [] := List.perm_nil.1 (host.perm [])
      rw [hquiet, hcommitted] at hlog
      cases value with
      | false =>
        refine ⟨hclosed, ?_, ?_, hallow, rfl⟩
        · rw [hsurvivors]
          exact hcommitted
        · change m'.log = m.log ++ .committed (apply t.survivors m.committed) :: (announced host t.survivors ++ [])
          rw [hlog, hvalue]
          change _ = m.log ++ .committed _ :: ((host.order (insertAll [] [])).flatMap _ ++ [])
          rw [hquiet]
          rfl
      | true =>
        dsimp only
        rw [notify_outside hclosed]
        refine ⟨hclosed, ?_, ?_, hallow, rfl⟩
        · rw [hsurvivors]
          exact hcommitted
        · change m'.log ++ _ = m.log ++ .committed (apply t.survivors m.committed) :: (announced host t.survivors ++ [])
          have hone : host.order (insertAll [] [sessionId]) = [sessionId] := List.perm_singleton.1 (host.perm [sessionId])
          rw [hlog, hvalue]
          change _ = m.log ++ .committed _ :: ((host.order (insertAll [] [sessionId])).flatMap _ ++ [])
          rw [hone]
          simp

lemma works_exec (host : Host) (p : Stmt σ) : Works host (exec host p) := by
  induction p with
  | done => exact ⟨fun m c hc => inside_nil hc, fun m hc => outside_nil hc⟩
  | raise => exact ⟨fun m c hc => inside_nil hc, fun m hc => outside_nil hc⟩
  | write f => exact works_write f
  | read k ih => exact ⟨fun m c hc => (ih m.tables).inside m c hc, fun m hc => (ih m.tables).outside m hc⟩
  | append weather sessionId tx => exact works_append weather sessionId tx
  | seq first rest ihfirst ihrest =>
    constructor
    · intro m c hc
      have hfirst := ihfirst.inside m c hc
      unfold exec
      rcases hresult : exec host first m with ⟨_ | ⟨⟩, m₁, t⟩
      · rw [hresult] at hfirst
        exact hfirst
      · rw [hresult] at hfirst
        exact hfirst.append (ihrest.inside m₁ _ hfirst.connection)
    · intro m hc
      have hfirst := ihfirst.outside m hc
      unfold exec
      rcases hresult : exec host first m with ⟨_ | ⟨⟩, m₁, t⟩
      · rw [hresult] at hfirst
        exact hfirst
      · rw [hresult] at hfirst
        exact hfirst.append (ihrest.outside m₁ hfirst.connection)
  | attempt body handler ihbody ihhandler =>
    constructor
    · intro m c hc
      have hbody := ihbody.inside m c hc
      unfold exec
      rcases hresult : exec host body m with ⟨_ | ⟨⟩, m₁, t⟩
      · rw [hresult] at hbody
        exact hbody.append (ihhandler.inside m₁ _ hbody.connection)
      · rw [hresult] at hbody
        exact hbody
    · intro m hc
      have hbody := ihbody.outside m hc
      unfold exec
      rcases hresult : exec host body m with ⟨_ | ⟨⟩, m₁, t⟩
      · rw [hresult] at hbody
        exact hbody.append (ihhandler.outside m₁ hbody.connection)
      · rw [hresult] at hbody
        exact hbody
  | atomic weather body ih => exact works_atomic ih
  | transaction weather body ih => exact works_block ih

end Statements

/-- What a thread leaves that was outside of a transaction. -/
structure Semantics (host : Host) (m m' : Thread σ) (t : Executed (Effect σ)) : Prop where
  committed : m'.committed = apply t.survivors m.committed
  survivors : ∀ e, e ∈ t.survivors ↔ ∃ path, t.Occurs e path ∧ ∀ completed ∈ path, completed = true
  log : m'.log = m.log ++ published host m.committed t.outermost
  blocks : t.outermost.flatten = t.survivors
  notified : ∀ observer sessionId, .notified observer sessionId ∈ published host m.committed t.outermost ↔
    observer ∈ host.observers ∧ ∃ e ∈ t.survivors, e.session = some sessionId
  after : ∀ before later observer sessionId,
    published host m.committed t.outermost = before ++ .notified observer sessionId :: later →
      ∃ earlier effects rest, t.outermost = earlier ++ effects :: rest ∧ sessionId ∈ sessionsOf effects ∧
        .committed (apply effects (apply earlier.flatten m.committed)) ∈ before
  once : host.observers.Nodup → ∀ effects ∈ t.outermost, (announced host effects).Nodup
  idle : m'.connection = none ∧ m'.allowJoin = m.allowJoin

lemma mem_sessionsOf {effects : List (Effect σ)} {sessionId : String} :
    sessionId ∈ sessionsOf effects ↔ ∃ e ∈ effects, e.session = some sessionId := List.mem_filterMap

lemma announced_after {host : Host} {tables : σ} {blocks : List (List (Effect σ))} {before later : List (Happening σ)}
    {observer sessionId : String} (h : published host tables blocks = before ++ .notified observer sessionId :: later) :
    ∃ earlier effects rest, blocks = earlier ++ effects :: rest ∧ sessionId ∈ sessionsOf effects ∧
      Happening.committed (apply effects (apply earlier.flatten tables)) ∈ before := by
  induction blocks generalizing tables before with
  | nil => simp [published] at h
  | cons effects blocks ih =>
    cases before with
    | nil =>
      rw [published, List.nil_append, List.cons.injEq] at h
      cases h.1
    | cons first before =>
      rw [published, List.cons_append, List.cons.injEq] at h
      obtain ⟨rfl, h⟩ := h
      rcases List.append_eq_append_iff.1 h with ⟨rest, hbefore, hrest⟩ | ⟨rest, hannounced, hrest⟩
      · obtain ⟨earlier, effects', rest', hblocks, hmem, hcommitted⟩ := ih hrest
        refine ⟨effects :: earlier, effects', rest', by rw [hblocks]; rfl, hmem, ?_⟩
        rw [List.flatten_cons, apply_append, hbefore]
        exact List.mem_cons_of_mem _ (List.mem_append_right _ hcommitted)
      · cases rest with
        | nil =>
          rw [List.nil_append] at hrest
          obtain ⟨earlier, effects', rest', hblocks, hmem, hcommitted⟩ := @ih _ [] hrest.symm
          cases hcommitted
        | cons x rest =>
          obtain ⟨rfl, -⟩ := List.cons.inj hrest
          have hmem : Happening.notified observer sessionId ∈ announced host effects := by
            rw [hannounced]
            exact List.mem_append_right _ (List.mem_cons_self ..)
          exact ⟨[], effects, blocks, rfl, (mem_announced.1 hmem).2, List.mem_cons_self ..⟩

lemma nodup_announced {host : Host} (h : host.observers.Nodup) (effects : List (Effect σ)) :
    (announced host effects).Nodup := by
  refine List.nodup_flatMap.2 ⟨fun sessionId _ => ?_, ?_⟩
  · refine h.map fun o o' ho => ?_
    cases ho
    rfl
  · have hsessions : (host.order (insertAll [] (sessionsOf effects))).Nodup :=
      (host.perm _).nodup_iff.2 (nodup_insertAll List.nodup_nil _)
    refine hsessions.imp fun hne => ?_
    rw [Function.onFun, List.disjoint_left]
    intro x hx hx'
    obtain ⟨o, -, rfl⟩ := List.mem_map.1 hx
    obtain ⟨o', -, heq⟩ := List.mem_map.1 hx'
    cases heq
    exact hne rfl

def storeAppend (host : Store.Host) (req : Store.AppendRequest) (db : Store.Db) : Option (Appended Store.Db) :=
  match Store.appendTx host req db, Store.existingEvent host req db with
  | .error _, _ => none
  | .ok _, .ok (some _) => some .replayed
  | .ok (_, db), _ => some (.stored db)

def calm : Weather := ⟨true, true⟩

def caughtBlock (host : Store.Host) (kept discarded : Store.AppendRequest) : Stmt Store.Db :=
  .atomic calm (.seq (.append calm kept.sessionId (storeAppend host kept))
    (.attempt (.atomic calm (.seq (.append calm discarded.sessionId (storeAppend host discarded)) .raise)) .done))

def idleThread (db : Store.Db) : Thread Store.Db := ⟨db, none, [], false, 0, []⟩

def oneObserver : Host := ⟨["observer"], id, fun _ => List.Perm.refl _, fun _ => "0"⟩

def toolEvent (sessionId eventType : String) : Store.AppendRequest where
  sessionId := sessionId
  payload := [("event_type", .str eventType)]
  grant := none
  idempotencyKey := none
  eventVersion := 1
  now := 0
  stamp := "now"
  eventId := sessionId ++ "-event"
  refusal := none

end PromptForge.NestedBlocks

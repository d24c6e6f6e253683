import EA.DiscoveryNode

namespace EA

open ByteString

variable {serialises : MetaValue → Bool}

/-- Every key of the database is within the range that a load removes. -/
def Tagged (db : MetaDb) : Prop := ∀ key ∈ db, removedOnLoad key = true

theorem tagged_empty : Tagged ∅ := by
  intro key mem
  simp at mem

theorem Tagged.onApply {r : Replica} (h : Tagged r.db) {request : DiscoveryManagerRequest}
    {env : Env} (event : CatalogEvent (.apply request env)) (works : env.dbOk = true) :
    Tagged (onApply serialises request env r).1.db := by
  rw [onApply_works serialises event works]
  intro key mem
  rcases Writes.mem_replay mem with old | named
  · exact h key old
  · obtain ⟨op, written, rfl⟩ := List.mem_map.mp named
    obtain ⟨tag, among, tagged⟩ := writes_tagged r.memory op written
    exact removedOnLoad_of_tag among tagged

section Log

variable {log : List DiscoveryManagerRequest} {request : DiscoveryManagerRequest}

theorem replayLog_concat : replayLog serialises (log ++ [request]) =
    ((replayLog serialises log).1.after serialises request,
      (replayLog serialises log).2 ++ (replayLog serialises log).1.writes serialises request) := by
  simp only [replayLog, List.foldl_append, List.foldl_cons, List.foldl_nil]

theorem directory_after_concat : Directory.after serialises (log ++ [request]) =
    (((Directory.after serialises log).verdict request).settle serialises true
      (Directory.after serialises log)).1 := by
  simp only [Directory.after, List.foldl_append, List.foldl_cons, List.foldl_nil]

theorem replayLog_keys {key : Bytes} (named : key ∈ Writes.keys (replayLog serialises log).2)
    (later : List DiscoveryManagerRequest) :
    key ∈ Writes.keys (replayLog serialises (log ++ later)).2 := by
  induction later using List.reverseRecOn with
  | nil => rwa [List.append_nil]
  | append_singleton later request ih =>
    rw [← List.append_assoc, replayLog_concat, Writes.keys, List.map_append]
    exact List.mem_append_left _ ih

theorem replayLog_keys_take {n n' : Nat} (le : n ≤ n') {key : Bytes}
    (named : key ∈ Writes.keys (replayLog serialises (log.take n)).2) :
    key ∈ Writes.keys (replayLog serialises (log.take n')).2 := by
  have first : (log.take n').take n = log.take n := by rw [List.take_take, Nat.min_eq_left le]
  rw [← List.take_append_drop n (log.take n'), first]
  exact replayLog_keys named _

/-- Every request is on namespaces, zones and users. -/
abbrev CatalogLog (log : List DiscoveryManagerRequest) : Prop :=
  ∀ request ∈ log, CatalogEvent (.apply request ⟨0, true⟩)

variable (serialises) in
/-- A clean process that applied the log holds the directory. -/
theorem represents_replayLog (allowed : CatalogLog log) :
    Represents serialises
      ⟨Writes.replay (replayLog serialises log).2 ∅, (replayLog serialises log).1⟩
      (Directory.after serialises log) := by
  induction log using List.reverseRecOn with
  | nil => exact represents_empty serialises
  | append_singleton log request ih =>
    have before := ih fun q mem => allowed q (by simp [mem])
    have event := allowed request (by simp)
    have next := (answer_follows before event).2
    have applied := onApply_works serialises event rfl
      ⟨Writes.replay (replayLog serialises log).2 ∅, (replayLog serialises log).1⟩
    rw [replayLog_concat, directory_after_concat, Writes.replay_append]
    simp only [Replica.answer, Directory.answer, applied] at next
    exact next

end Log

/-! A load gives back the counters, whatever smaller ones the process had. -/

theorem reachable_counted {r : Replica} (h : CatalogReachable serialises r) :
    Counted r.db r.memory.schema := by
  refine Reach.From.invariant (I := fun r => Counted r.db r.memory.schema) ?_ ?_ h
  · intro kind
    right
    cases kind <;> exact ⟨by simp, rfl⟩
  · intro r e r' reach counted _ step
    exact (countersMove (reachable_catalog reach).recorded counted step).counted

theorem servletCounter_step {request : DiscoveryManagerRequest} {s : Schema} {p : Plan Schema}
    (other : request.opType ∉ ([.opCreateServlet, .opDropServlet, .opModifyServlet] : List OpType))
    (step : SchemaStep request s p) (db : MetaDb) (none : s.maxId .servletKind = 0) :
    p.Preserves (fun _ s => s.maxId .servletKind = 0) db := by
  cases step with
  | createServlet _ op => exact absurd op (by simp at other; exact other.1)
  | dropServlet _ _ op => exact absurd op (by simp at other; exact other.2.1)
  | modifyServlet _ _ _ _ op => exact absurd op (by simp at other; exact other.2.2)
  | refused | namespaceHasZones | zoneHasServlets => exact none
  | _ => exact ⟨none, none⟩

theorem reachable_servletCounter {r : Replica} (h : CatalogReachable serialises r) :
    r.memory.schema.maxId .servletKind = 0 := by
  refine Reach.From.invariant (I := fun r => r.memory.schema.maxId .servletKind = 0) rfl ?_ h
  intro r e r' reach none allowed step
  have counted := reachable_counted reach
  have recorded := (reachable_catalog reach).recorded
  cases e with
  | apply request env =>
    cases Option.some.inj step
    have applied := onApply_applied serialises request env r
    generalize onApply serialises request env r = out at applied
    cases applied with
    | schema p plan =>
      exact Plan.run_preserves (I := fun _ (s : Schema) => s.maxId .servletKind = 0)
        (servletCounter_step (catalogEvent_servlets allowed) (schemaPlan_step plan) r.db none)
    | users | configs | instances | unknown => exact none
  | reload =>
    obtain ⟨m, load, rfl⟩ := Option.map_eq_some_iff.mp step
    have same := counted.reload recorded (Or.inl rfl) (loadSnapshot_eq_some load).2.1
    exact (same .servletKind).trans none
  | restart =>
    obtain ⟨m, load, rfl⟩ := Option.map_eq_some_iff.mp step
    have same := counted.reload recorded (Or.inr rfl) (loadSnapshot_eq_some load).2.1
    exact (same .servletKind).trans none

theorem Represents.maxId {r r' : Replica} {d : Directory} (h : Represents serialises r d)
    (h' : Represents serialises r' d) (kind : CatalogKind) :
    r.memory.schema.maxId kind = r'.memory.schema.maxId kind := by
  cases kind with
  | namespaceKind => exact h.2.namespacesMade.trans h'.2.namespacesMade.symm
  | zoneKind => exact h.2.zonesMade.trans h'.2.zonesMade.symm
  | servletKind => exact (reachable_servletCounter h.1).trans (reachable_servletCounter h'.1).symm

variable (serialises) in
theorem maxId_replayLog {log later : List DiscoveryManagerRequest}
    (allowed : CatalogLog (log ++ later)) (kind : CatalogKind) :
    (replayLog serialises log).1.schema.maxId kind ≤
      (replayLog serialises (log ++ later)).1.schema.maxId kind := by
  induction later using List.reverseRecOn with
  | nil => rw [List.append_nil]
  | append_singleton later request ih =>
    rw [← List.append_assoc] at allowed ⊢
    have before : CatalogLog (log ++ later) := fun q mem => allowed q (List.mem_append_left _ mem)
    have event := allowed request (by simp)
    have represents := represents_replayLog serialises before
    have moved := countersMove_applied (reachable_counted represents.1)
      (onApply_applied serialises request ⟨0, true⟩ _)
    have ascends := moved.ascend kind
    rw [onApply_works serialises event rfl] at ascends
    rw [replayLog_concat]
    exact (ih before).trans ascends

theorem lastCounter_of_le {counterKey : Bytes} {db : MetaDb} {bound : Nat}
    (counted : db[counterKey]? = some (.raw (rawId bound)) ∨ (db[counterKey]? = none ∧ bound = 0))
    {ids : List Nat} (listed : ∀ id, id ∈ ids ↔ db[counterKey]? = some (.raw (rawId id)))
    {start : Nat} (below : start ≤ bound) : lastCounter start ids = lastCounter 0 ids := by
  have zero : lastCounter 0 ids = bound := lastCounter_of_counted counted listed (Or.inr rfl)
  rcases counted with here | ⟨none, rfl⟩
  · cases ids with
    | nil =>
      have mem := (listed bound).mpr here
      simp at mem
    | cons id ids => rfl
  · have eq : start = 0 := by omega
    rw [eq]

/-- Smaller counters in memory are of no account to a load. -/
theorem loadSnapshot_of_le {r : Replica} (h : CatalogReachable serialises r) {m : Memory}
    (below : ∀ kind, m.schema.maxId kind ≤ r.memory.schema.maxId kind) :
    loadSnapshot r.db m = loadSnapshot r.db {} := by
  have counted := reachable_counted h
  obtain ⟨rs, lists, loaded⟩ := Replay.scan_foldlM_all loadSchemaRecord_entry
    (reachable_catalog h).recorded
  have last : ∀ kind : CatalogKind, lastCounter (m.schema.maxId kind)
      (SchemaRecord.counters kind.tag rs) = lastCounter 0 (SchemaRecord.counters kind.tag rs) := by
    intro kind
    refine lastCounter_of_le (counted kind) ?_ (below kind)
    intro id
    rw [mem_counters lists kind.counterOf, kind.counter_entry]
  have namespaces : lastCounter m.schema.namespaces.maxNamespaceId (SchemaRecord.counters 0x02 rs) =
      lastCounter 0 (SchemaRecord.counters 0x02 rs) := last .namespaceKind
  have zones : lastCounter m.schema.zones.maxZoneId (SchemaRecord.counters 0x09 rs) =
      lastCounter 0 (SchemaRecord.counters 0x09 rs) := last .zoneKind
  have servlets : lastCounter m.schema.servlets.maxServletId (SchemaRecord.counters 0x0A rs) =
      lastCounter 0 (SchemaRecord.counters 0x0A rs) := last .servletKind
  have same : loadedSchema rs m.schema.clear = loadedSchema rs ({} : Schema).clear := by
    simp only [loadedSchema, Schema.clear, namespaces, zones, servlets]
  have schema : loadSchema r.db m.schema = loadSchema r.db {} := by
    rw [loadSchema, loadSchema, records, loaded, loaded, foldl_load, foldl_load, same]
  simp only [loadSnapshot, schema]

/-! The processes of the group. -/

/-- The snapshot accounts for its part of the log. -/
structure SnapshotSound (serialises : MetaValue → Bool) (log : List DiscoveryManagerRequest)
    (s : DiscoverySnapshot) : Prop where
  within : s.index ≤ log.length
  tagged : Tagged s.file
  holds : ∃ m, Represents serialises ⟨s.file, m⟩ (Directory.after serialises (log.take s.index))

/-- A process that never had a snapshot repeats the log from its beginning, over what its
last flush has left of the entries up to the horizon. -/
structure FromScratch (serialises : MetaValue → Bool) (log : List DiscoveryManagerRequest)
    (node : DiscoveryNode) : Prop where
  memory : node.replica.memory = (replayLog serialises (log.take node.applied)).1
  leftover : ∃ left : MetaDb,
    (∀ key ∈ left, key ∈ Writes.keys (replayLog serialises (log.take node.horizon)).2) ∧
      node.replica.db = Writes.replay (replayLog serialises (log.take node.applied)).2 left
  flushed : ∀ key ∈ node.flushed,
    key ∈ Writes.keys (replayLog serialises (log.take node.horizon)).2

structure NodeInv (serialises : MetaValue → Bool) (log : List DiscoveryManagerRequest)
    (node : DiscoveryNode) : Prop where
  working : node.failed = false
  applied : node.applied ≤ log.length
  horizon : node.applied ≤ node.horizon ∧ node.horizon ≤ log.length
  tagged : Tagged node.replica.db ∧ Tagged node.flushed
  snapshots : ∀ s, node.snapshot = some s ∨ node.saving = some s → SnapshotSound serialises log s
  saving : node.saving.isSome → node.horizon ≤ node.applied
  fromScratch : node.snapshot = none → FromScratch serialises log node
  recovered : node.snapshot.isSome →
    Represents serialises node.replica (Directory.after serialises (log.take node.applied))

section Steps

variable {log : List DiscoveryManagerRequest} {node : DiscoveryNode}

theorem CatalogLog.take (allowed : CatalogLog log) (n : Nat) : CatalogLog (log.take n) :=
  fun request mem => allowed request (List.mem_of_mem_take mem)

/-- Once it has caught up with its flush, the database is as if there had been none. -/
theorem FromScratch.caughtUp (h : FromScratch serialises log node)
    (allowed : CatalogLog log) (caught : node.horizon ≤ node.applied) :
    Represents serialises node.replica (Directory.after serialises (log.take node.applied)) := by
  obtain ⟨left, own, db⟩ := h.leftover
  have named : ∀ key ∈ left,
      key ∈ Writes.keys (replayLog serialises (log.take node.applied)).2 :=
    fun key mem => replayLog_keys_take caught (own key mem)
  have clean := represents_replayLog serialises (allowed.take node.applied)
  rw [← h.memory, ← Writes.replay_of_leftover named, ← db] at clean
  exact clean

/-- Whatever its database, the memory of a process holds the directory. -/
theorem NodeInv.memory (h : NodeInv serialises log node) (allowed : CatalogLog log) :
    ∃ db, Represents serialises ⟨db, node.replica.memory⟩
      (Directory.after serialises (log.take node.applied)) := by
  cases has : node.snapshot with
  | some s => exact ⟨node.replica.db, h.recovered (by rw [has]; rfl)⟩
  | none =>
    rw [(h.fromScratch has).memory]
    exact ⟨_, represents_replayLog serialises (allowed.take node.applied)⟩

theorem nodeInv_init (serialises : MetaValue → Bool) : NodeInv serialises [] {} where
  working := rfl
  applied := Nat.le_refl 0
  horizon := ⟨Nat.le_refl 0, Nat.le_refl 0⟩
  tagged := ⟨tagged_empty, tagged_empty⟩
  snapshots s here := by simp at here
  saving here := by simp at here
  fromScratch _ := ⟨rfl, ⟨∅, by simp, rfl⟩, by simp⟩
  recovered here := by simp at here

theorem take_commit {n : Nat} (within : n ≤ log.length) (request : DiscoveryManagerRequest) :
    (log ++ [request]).take n = log.take n := List.take_append_of_le_length within

theorem SnapshotSound.commit {s : DiscoverySnapshot} (h : SnapshotSound serialises log s)
    (request : DiscoveryManagerRequest) : SnapshotSound serialises (log ++ [request]) s where
  within := by
    have within := h.within
    simp only [List.length_append]
    omega
  tagged := h.tagged
  holds := by
    rw [take_commit h.within]
    exact h.holds

theorem NodeInv.commit (h : NodeInv serialises log node) (request : DiscoveryManagerRequest) :
    NodeInv serialises (log ++ [request]) node := by
  have applied := take_commit h.applied request
  have horizon := take_commit h.horizon.2 request
  have longer : log.length ≤ (log ++ [request]).length := by simp
  refine ⟨h.working, h.applied.trans longer, ⟨h.horizon.1, h.horizon.2.trans longer⟩, h.tagged,
    fun s here => (h.snapshots s here).commit request, h.saving, fun none => ?_, fun some => ?_⟩
  · obtain ⟨memory, leftover, flushed⟩ := h.fromScratch none
    refine ⟨?_, ?_, ?_⟩
    · rwa [applied]
    · rwa [applied, horizon]
    · rwa [horizon]
  · rw [applied]
    exact h.recovered some

/-- A process that has caught up holds the directory in memory and in its database. -/
theorem NodeInv.current (h : NodeInv serialises log node) (allowed : CatalogLog log)
    (caught : node.horizon ≤ node.applied) :
    Represents serialises node.replica (Directory.after serialises (log.take node.applied)) := by
  cases has : node.snapshot with
  | some s => exact h.recovered (by rw [has]; rfl)
  | none => exact (h.fromScratch has).caughtUp allowed caught

theorem NodeInv.apply (h : NodeInv serialises log node) (allowed : CatalogLog log)
    {request : DiscoveryManagerRequest} (next : log[node.applied]? = some request) {env : Env}
    (works : env.dbOk = true) :
    NodeInv serialises log { node with
      replica := (onApply serialises request env node.replica).1
      applied := node.applied + 1
      horizon := max node.horizon (node.applied + 1) } := by
  have event : CatalogEvent (.apply request env) := allowed request (List.mem_of_getElem? next)
  have applied := onApply_works serialises event works node.replica
  have longer : log.take (node.applied + 1) = log.take node.applied ++ [request] := by
    rw [List.take_add_one, next]
    rfl
  obtain ⟨within, _⟩ := List.getElem?_eq_some_iff.mp next
  have further : ∀ {key : Bytes},
      key ∈ Writes.keys (replayLog serialises (log.take node.horizon)).2 →
      key ∈ Writes.keys
        (replayLog serialises (log.take (max node.horizon (node.applied + 1)))).2 :=
    fun named => replayLog_keys_take (Nat.le_max_left _ _) named
  refine ⟨h.working, within, ⟨Nat.le_max_right _ _, ?_⟩, ⟨h.tagged.1.onApply event works, h.tagged.2⟩,
    h.snapshots, ?_, ?_, ?_⟩
  · exact Nat.max_le.mpr ⟨h.horizon.2, within⟩
  · intro saving
    have caught := h.saving saving
    dsimp only
    omega
  · intro none
    obtain ⟨memory, ⟨left, own, db⟩, flushed⟩ := h.fromScratch none
    refine ⟨?_, ⟨left, fun key mem => further (own key mem), ?_⟩,
      fun key mem => further (flushed key mem)⟩
    · dsimp only
      rw [applied, longer, replayLog_concat, memory]
    · dsimp only
      rw [applied, longer, replayLog_concat, Writes.replay_append, db, memory]
  · intro some
    have next := (answer_follows (h.recovered some) event).2
    dsimp only
    rw [longer, directory_after_concat]
    simp only [Replica.answer, Directory.answer, works] at next
    exact next

theorem NodeInv.flush (h : NodeInv serialises log node) :
    NodeInv serialises log { node with flushed := node.replica.db } := by
  refine ⟨h.working, h.applied, h.horizon, ⟨h.tagged.1, h.tagged.1⟩, h.snapshots, h.saving, ?_,
    h.recovered⟩
  intro none
  obtain ⟨memory, ⟨left, own, db⟩, _⟩ := h.fromScratch none
  refine ⟨memory, ⟨left, own, db⟩, ?_⟩
  intro key mem
  dsimp only at mem
  rw [db] at mem
  rcases Writes.mem_replay mem with old | named
  · exact own key old
  · exact replayLog_keys_take h.horizon.1 named

theorem FromScratch.setSaving (h : FromScratch serialises log node)
    (saving : Option DiscoverySnapshot) : FromScratch serialises log { node with saving := saving } :=
  ⟨h.memory, h.leftover, h.flushed⟩

theorem NodeInv.onSnapshotSave (h : NodeInv serialises log node) (allowed : CatalogLog log)
    (caught : node.horizon ≤ node.applied) :
    NodeInv serialises log
      { node with saving := some ⟨node.replica.db, node.applied⟩ } := by
  refine ⟨h.working, h.applied, h.horizon, h.tagged, ?_, fun _ => caught,
    fun none => (h.fromScratch none).setSaving _, h.recovered⟩
  intro s here
  rcases here with snapshot | saving
  · exact h.snapshots s (Or.inl snapshot)
  · cases saving
    exact ⟨h.applied, h.tagged.1, _, h.current allowed caught⟩

theorem NodeInv.saved (h : NodeInv serialises log node) (allowed : CatalogLog log)
    {s : DiscoverySnapshot} (saving : node.saving = some s) :
    NodeInv serialises log { node with saving := none, snapshot := some s } := by
  have caught := h.saving (by rw [saving]; rfl)
  refine ⟨h.working, h.applied, h.horizon, h.tagged, ?_, nofun, nofun,
    fun _ => h.current allowed caught⟩
  intro s' here
  rcases here with snapshot | none
  · cases snapshot
    exact h.snapshots s (Or.inr saving)
  · cases none

theorem NodeInv.notSaved (h : NodeInv serialises log node) :
    NodeInv serialises log { node with saving := none } := by
  refine ⟨h.working, h.applied, h.horizon, h.tagged, ?_, nofun,
    fun none => (h.fromScratch none).setSaving _, h.recovered⟩
  intro s here
  rcases here with snapshot | none
  · exact h.snapshots s (Or.inl snapshot)
  · cases none

theorem NodeInv.restart (h : NodeInv serialises log node) (fresh : node.snapshot = none) :
    NodeInv serialises log
      { node with replica := ⟨node.flushed, {}⟩, applied := 0, saving := none } := by
  have flushed := (h.fromScratch fresh).flushed
  refine ⟨h.working, Nat.zero_le _, ⟨Nat.zero_le _, h.horizon.2⟩, ⟨h.tagged.2, h.tagged.2⟩, ?_,
    nofun, fun _ => ⟨rfl, ⟨node.flushed, flushed, rfl⟩, flushed⟩, ?_⟩
  · intro s here
    rcases here with snapshot | saving
    · exact h.snapshots s (Or.inl snapshot)
    · cases saving
  · intro has
    dsimp only at has
    rw [fresh] at has
    cases has

/-- A load of a sound snapshot succeeds, in a process that is not ahead of it. -/
theorem SnapshotSound.load {s : DiscoverySnapshot} (h : SnapshotSound serialises log s)
    {r : Replica} (tagged : Tagged r.db)
    (behind : ∀ m, Represents serialises ⟨s.file, m⟩
        (Directory.after serialises (log.take s.index)) →
      ∀ kind, r.memory.schema.maxId kind ≤ m.schema.maxId kind) :
    ∃ m, onSnapshotLoad s.file r = some ⟨s.file, m⟩ ∧
      Represents serialises ⟨s.file, m⟩ (Directory.after serialises (log.take s.index)) := by
  obtain ⟨m₀, represents⟩ := h.holds
  have file : Writes.ingest s.file (Writes.removeRange removedOnLoad r.db) = s.file := by
    rw [Writes.removeRange_eq_empty tagged, Writes.ingest_empty]
  obtain ⟨m, load, agrees⟩ := load_agrees (m := {}) represents.1 represents.2 (Or.inr rfl)
  have reload : loadSnapshot s.file r.memory = some m :=
    (loadSnapshot_of_le represents.1 (behind m₀ represents)).trans load
  have step : Replica.step serialises ⟨s.file, m₀⟩ .restart = some ⟨s.file, m⟩ := by
    rw [Replica.step, load]
    rfl
  refine ⟨m, ?_, represents.1.next (e := .restart) trivial step, agrees⟩
  simp only [onSnapshotLoad, file, reload]
  rfl

theorem nodeInv_load (node : DiscoveryNode) {s : DiscoverySnapshot}
    (sound : SnapshotSound serialises log s) {r : Replica} (tagged : Tagged r.db)
    (behind : ∀ m, Represents serialises ⟨s.file, m⟩
        (Directory.after serialises (log.take s.index)) →
      ∀ kind, r.memory.schema.maxId kind ≤ m.schema.maxId kind) :
    NodeInv serialises log (node.load r s) := by
  obtain ⟨m, load, represents⟩ := sound.load tagged behind
  rw [DiscoveryNode.load, load]
  refine ⟨rfl, sound.within, ⟨Nat.le_refl _, sound.within⟩, ⟨sound.tagged, sound.tagged⟩, ?_, nofun,
    nofun, fun _ => represents⟩
  intro s' here
  rcases here with snapshot | none
  · cases snapshot
    exact sound
  · cases none

theorem NodeInv.install (h : NodeInv serialises log node) (allowed : CatalogLog log)
    {s : DiscoverySnapshot} (sound : SnapshotSound serialises log s) {node' : DiscoveryNode}
    (installed : node.install s = some node') : NodeInv serialises log node' := by
  unfold DiscoveryNode.install at installed
  split at installed
  next => cases installed
  next enabled =>
    cases installed
    have ahead : node.applied ≤ s.index := by omega
    refine nodeInv_load node sound h.tagged.1 fun m represents kind => ?_
    have split : log.take s.index =
        log.take node.applied ++ (log.take s.index).drop node.applied := by
      have first : (log.take s.index).take node.applied = log.take node.applied := by
        rw [List.take_take, Nat.min_eq_left ahead]
      rw [← first, List.take_append_drop]
    have ascends := maxId_replayLog serialises (split ▸ allowed.take s.index) kind
    rw [← split] at ascends
    obtain ⟨db, here⟩ := h.memory allowed
    have own := here.maxId (represents_replayLog serialises (allowed.take node.applied)) kind
    have other := represents.maxId (represents_replayLog serialises (allowed.take s.index)) kind
    dsimp only at own other
    omega

end Steps

end EA

import EA.CatalogIds

namespace EA

open ByteString

variable {serialises : MetaValue → Bool} {ok : Replica → DiscoveryEvent → Prop}

/-- What no modification changes of a servlet. -/
def ServletInfo.identity (info : ServletInfo) : ServletInfo :=
  { info with version := 0, resourceTag := none }

/-- Memory or database holds the info, under whatever number. -/
def KnownServlet (db : MetaDb) (s : Schema) (info : ServletInfo) : Prop :=
  (∃ v : Nat, s.servlets.infoMap[v]? = some info) ∨
    ∃ v : Nat, db[constructServletKey v]? = some (.servletInfo info)

/-- Where an info comes from that is known after a request. -/
inductive ServletOrigin (request : DiscoveryManagerRequest) (db : MetaDb) (s s' : Schema)
    (info : ServletInfo) : Prop
  | known (old : ServletInfo) (h : KnownServlet db s old) (same : info.identity = old.identity)
  | blank (same : info.identity = default)
  | created (built : createdServlet request s = info)
      (named : info.namespaceName = request.servletInfo.namespaceName ∧
        info.zone = request.servletInfo.zone ∧ info.servletName = request.servletInfo.servletName)
      (zone : s.zones.idMap[info.zoneKey]? = some info.zoneId)
      (number : info.servletId = s.servlets.maxServletId + 1)
      (counter : s'.servlets.maxServletId = info.servletId)

theorem servletRecord_batch {ops : List BatchOp} (foreign : ∀ op ∈ ops, owner op.1 ≠ some 0x0A)
    (db : MetaDb) (v : Nat) :
    (ops.foldl BatchOp.apply db)[constructServletKey v]? = db[constructServletKey v]? := by
  refine lookup_batch ?_ db
  intro op hop eq
  exact foreign op hop (eq ▸ owner_servletKey v)

theorem KnownServlet.of_same {db db' : MetaDb} {s s' : Schema} {info : ServletInfo}
    (h : KnownServlet db' s' info) (infoMap : s'.servlets.infoMap = s.servlets.infoMap)
    (records : ∀ v, db'[constructServletKey v]? = db[constructServletKey v]?) :
    KnownServlet db s info := by
  rcases h with ⟨v, found⟩ | ⟨v, stored⟩
  · exact Or.inl ⟨v, infoMap ▸ found⟩
  · exact Or.inr ⟨v, (records v).symm.trans stored⟩

/-- Two maps of one step: what both promise of the outcome, the outcome has. -/
theorem Plan.Preserves.and {σ : Type} {I J : MetaDb → σ → Prop} {db : MetaDb} {p : Plan σ}
    (h : p.Preserves I db) (h' : p.Preserves J db) :
    p.Preserves (fun db s => I db s ∧ J db s) db := by
  cases p with
  | refuse => exact ⟨h, h'⟩
  | write => exact ⟨⟨h.1, h'.1⟩, ⟨h.2, h'.2⟩⟩

theorem Plan.Preserves.imp {σ : Type} {I J : MetaDb → σ → Prop} {db : MetaDb} {p : Plan σ}
    (h : p.Preserves I db) (imp : ∀ db s, I db s → J db s) : p.Preserves J db := by
  cases p with
  | refuse => exact imp _ _ h
  | write => exact ⟨imp _ _ h.1, imp _ _ h.2⟩

/-- A request makes no servlet known that was not known or new, up to its version and
tag: the blank ones come from reading an info that is not there. -/
theorem SchemaStep.known {request : DiscoveryManagerRequest} {s : Schema} {p : Plan Schema}
    (step : SchemaStep request s p) (db : MetaDb) :
    p.Preserves (fun db' s' => ∀ info, KnownServlet db' s' info →
      ServletOrigin request db s s' info) db := by
  have same : ∀ {db' : MetaDb} {s' : Schema}, s'.servlets.infoMap = s.servlets.infoMap →
      (∀ v, db'[constructServletKey v]? = db[constructServletKey v]?) →
      ∀ info, KnownServlet db' s' info → ServletOrigin request db s s' info :=
    fun infoMap records info h => .known info (h.of_same infoMap records) rfl
  have memory : ∀ {s' : Schema} {v : Nat} {info : ServletInfo},
      s.servlets.infoMap[v]? = some info → ServletOrigin request db s s' info :=
    fun found => .known _ (Or.inl ⟨_, found⟩) rfl
  have record : ∀ {s' : Schema} {v : Nat} {info : ServletInfo},
      db[constructServletKey v]? = some (.servletInfo info) →
      ServletOrigin request db s s' info :=
    fun stored => .known _ (Or.inr ⟨_, stored⟩) rfl
  cases step with
  | refused | namespaceHasZones | zoneHasServlets => exact same rfl fun _ => rfl
  | createNamespace | dropNamespace | modifyNamespace | createZone | dropZone | modifyZone =>
    exact ⟨same rfl fun _ => rfl, same rfl (servletRecord_batch (by simp) db)⟩
  | createServlet info op built named parents absent number =>
    refine ⟨same rfl fun _ => rfl, ?_⟩
    intro info' h
    have new : ∀ {s' : Schema}, s'.servlets.maxServletId = info.servletId →
        ServletOrigin request db s s' info := .created built named parents.2 number
    rcases h with ⟨v, found⟩ | ⟨v, stored⟩
    · rcases Table.lookup_insert_some found with ⟨_, rfl⟩ | ⟨_, old⟩
      · exact new rfl
      · exact memory old
    · rcases Table.lookup_insert_some stored with ⟨counter, _⟩ | ⟨_, stored⟩
      · exact absurd counter.symm (servletKeyspace.apart v)
      · rcases Table.lookup_insert_some stored with ⟨_, eq⟩ | ⟨_, old⟩
        · cases MetaValue.servletInfo.inj eq
          exact new rfl
        · exact record old
  | dropServlet zoneId other op owner zone found =>
    refine ⟨same rfl fun _ => rfl, ?_⟩
    intro info h
    rcases h with ⟨v, found⟩ | ⟨v, stored⟩
    · exact memory (Table.lookup_erase_some found).2
    · exact record (Table.lookup_erase_some stored).2
  | modifyServlet zoneId id old info op owner zone found read built =>
    have touched : ∀ {s' : Schema} {v : Nat} {info : ServletInfo},
        (s.servlets.touchInfo zoneId).infoMap[v]? = some info →
        ServletOrigin request db s s' info := by
      intro s' v info found
      rcases Table.lookup_touch_some found with old | ⟨_, rfl⟩
      · exact memory old
      · exact .blank rfl
    have new : ∀ {s' : Schema}, ServletOrigin request db s s' info := by
      intro s'
      rw [← built]
      rcases Table.lookup_of_getD read with here | rfl
      · exact .known old (Or.inl ⟨zoneId, here⟩) rfl
      · exact .blank rfl
    refine ⟨?_, ?_⟩
    · intro info h
      rcases h with ⟨v, found⟩ | ⟨v, stored⟩
      · exact touched found
      · exact record stored
    · intro info' h
      rcases h with ⟨v, found⟩ | ⟨v, stored⟩
      · rcases Table.lookup_insert_some found with ⟨_, rfl⟩ | ⟨_, found⟩
        · exact new
        · exact touched found
      · rcases Table.lookup_insert_some stored with ⟨_, eq⟩ | ⟨_, stored⟩
        · cases MetaValue.servletInfo.inj eq
          exact new
        · exact record stored

/-- The managers' record keeping of servlets, as far as every run keeps it. -/
structure ServletsTracked (db : MetaDb) (s : Schema) : Prop where
  counted : Counted db s
  bounded : ∀ info, KnownServlet db s info → info.servletId ≤ s.servlets.maxServletId
  alike : ∀ a b, KnownServlet db s a → KnownServlet db s b → a.servletId = b.servletId →
    a.servletId ≠ 0 → a.identity = b.identity
  placed : ∀ (v : Nat) (info : ServletInfo), s.servlets.infoMap[v]? = some info →
    (info.servletId = v ∧ 1 ≤ info.version) ∨ (info = default ∧ v ≠ 0)
  named : ∀ (key : Bytes) (v : Nat), s.servlets.idMap[key]? = some v →
    v = 0 ∨ ∃ info : ServletInfo, s.servlets.infoMap[v]? = some info ∧ info.servletId = v ∧
      info.servletKey = key
  stored : ∀ (v : Nat) (info : ServletInfo),
    db[constructServletKey v]? = some (.servletInfo info) → 1 ≤ info.version

theorem identity_servletKey {a b : ServletInfo} (h : a.identity = b.identity) :
    a.servletKey = b.servletKey := by
  have key := congrArg ServletInfo.servletKey h
  exact key

theorem identity_servletId {a b : ServletInfo} (h : a.identity = b.identity) :
    a.servletId = b.servletId := by
  have number := congrArg ServletInfo.servletId h
  exact number

theorem servletsTracked_empty : ServletsTracked ∅ {} where
  counted kind := Or.inr ⟨by simp, by cases kind <;> rfl⟩
  bounded info h := by simp [KnownServlet] at h
  alike a b h := by simp [KnownServlet] at h
  placed := by simp
  named := by simp
  stored := by simp

theorem ServletsTracked.frame {db db' : MetaDb} {s : Schema}
    (same : SameRecords schemaIdentify db db') (h : ServletsTracked db s) :
    ServletsTracked db' s := by
  have back : ∀ info, KnownServlet db' s info → KnownServlet db s info :=
    fun info known => known.of_same rfl fun _ => same _ rfl
  constructor
  case counted => exact h.counted.frame same
  case bounded => exact fun info known => h.bounded info (back info known)
  case alike => exact fun a b ha hb => h.alike a b (back a ha) (back b hb)
  case placed => exact h.placed
  case named => exact h.named
  case stored =>
    intro v info stored
    exact h.stored v info ((same _ rfl).symm.trans stored)

theorem ServletsTracked.bounded_of_origin {request : DiscoveryManagerRequest} {db : MetaDb}
    {s s' : Schema} (h : ServletsTracked db s)
    (ascend : s.servlets.maxServletId ≤ s'.servlets.maxServletId) {info : ServletInfo}
    (origin : ServletOrigin request db s s' info) : info.servletId ≤ s'.servlets.maxServletId := by
  cases origin with
  | known old known same =>
    have le := h.bounded old known
    rw [identity_servletId same]
    omega
  | blank same =>
    have zero : info.servletId = 0 := identity_servletId (b := default) same
    omega
  | created built named zone number counter => omega

/-- Two infos of one number descend from one servlet. -/
theorem ServletsTracked.alike_of_origin {request : DiscoveryManagerRequest} {db : MetaDb}
    {s s' : Schema} (h : ServletsTracked db s) {a b : ServletInfo}
    (fromA : ServletOrigin request db s s' a) (fromB : ServletOrigin request db s s' b)
    (number : a.servletId = b.servletId) (nonzero : a.servletId ≠ 0) : a.identity = b.identity := by
  have blank : ∀ {info : ServletInfo}, info.identity = default → info.servletId = 0 :=
    fun same => identity_servletId (b := default) same
  cases fromA with
  | blank same => exact absurd (blank same) nonzero
  | known oldA knownA sameA =>
    have idA := identity_servletId sameA
    cases fromB with
    | blank same => exact absurd (number.trans (blank same)) nonzero
    | created _ _ _ new =>
      have le := h.bounded oldA knownA
      omega
    | known oldB knownB sameB =>
      have idB := identity_servletId sameB
      have same := h.alike oldA oldB knownA knownB (by omega) (by omega)
      exact sameA.trans (same.trans sameB.symm)
  | created builtA _ _ new =>
    cases fromB with
    | blank same => exact absurd (number.trans (blank same)) nonzero
    | created builtB => rw [← builtA, ← builtB]
    | known oldB knownB sameB =>
      have idB := identity_servletId sameB
      have le := h.bounded oldB knownB
      omega

/-- The info that `modify_servlet` writes, whatever it has read. -/
theorem ServletsTracked.modified {db : MetaDb} {s : Schema} (h : ServletsTracked db s)
    {zoneId : Nat} {old info : ServletInfo} {asked : ServletInfo}
    (read : s.servlets.infoMap.getD zoneId default = old)
    (built : modifiedServlet asked old = info) : 1 ≤ info.version := by
  have version : info.version = old.version + 1 := by rw [← built, modifiedServlet]
  rcases Table.lookup_of_getD read with here | rfl
  · rcases h.placed zoneId old here with ⟨_, grown⟩ | ⟨rfl, _⟩
    · omega
    · have zero : (default : ServletInfo).version = 0 := rfl
      omega
  · have zero : (default : ServletInfo).version = 0 := rfl
    omega

theorem ServletsTracked.stored_step {request : DiscoveryManagerRequest} {db : MetaDb} {s : Schema}
    {p : Plan Schema} (h : ServletsTracked db s) (step : SchemaStep request s p) :
    p.Preserves (fun db' _ => ∀ (v : Nat) (info : ServletInfo),
      db'[constructServletKey v]? = some (.servletInfo info) → 1 ≤ info.version) db := by
  cases step with
  | refused | namespaceHasZones | zoneHasServlets => exact h.stored
  | createNamespace | dropNamespace | modifyNamespace | createZone | dropZone | modifyZone =>
    refine ⟨h.stored, fun v info stored => h.stored v info ?_⟩
    rwa [servletRecord_batch (by simp)] at stored
  | createServlet info op built =>
    refine ⟨h.stored, fun v info' stored => ?_⟩
    rcases Table.lookup_insert_some stored with ⟨counter, _⟩ | ⟨_, stored⟩
    · exact absurd counter.symm (servletKeyspace.apart v)
    · rcases Table.lookup_insert_some stored with ⟨_, eq⟩ | ⟨_, old⟩
      · cases MetaValue.servletInfo.inj eq
        have first : info.version = 1 := by rw [← built, createdServlet]
        omega
      · exact h.stored v info' old
  | dropServlet =>
    exact ⟨h.stored, fun v info stored => h.stored v info (Table.lookup_erase_some stored).2⟩
  | modifyServlet zoneId id old info op owner zone found read built =>
    refine ⟨h.stored, fun v info' stored => ?_⟩
    rcases Table.lookup_insert_some stored with ⟨_, eq⟩ | ⟨_, old⟩
    · cases MetaValue.servletInfo.inj eq
      exact h.modified read built
    · exact h.stored v info' old

theorem ServletsTracked.placed_step {request : DiscoveryManagerRequest} {db : MetaDb} {s : Schema}
    {p : Plan Schema} (h : ServletsTracked db s) (cat : Catalog db s)
    (step : SchemaStep request s p) :
    p.Preserves (fun _ s' => ∀ (v : Nat) (info : ServletInfo),
      s'.servlets.infoMap[v]? = some info →
        (info.servletId = v ∧ 1 ≤ info.version) ∨ (info = default ∧ v ≠ 0)) db := by
  cases step with
  | refused | namespaceHasZones | zoneHasServlets => exact h.placed
  | createNamespace | dropNamespace | modifyNamespace | createZone | dropZone | modifyZone =>
    exact ⟨h.placed, h.placed⟩
  | createServlet info op built =>
    refine ⟨h.placed, fun v info' found => ?_⟩
    rcases Table.lookup_insert_some found with ⟨number, rfl⟩ | ⟨_, old⟩
    · have first : info.version = 1 := by rw [← built, createdServlet]
      exact Or.inl ⟨number, by omega⟩
    · exact h.placed v info' old
  | dropServlet =>
    exact ⟨h.placed, fun v info found => h.placed v info (Table.lookup_erase_some found).2⟩
  | modifyServlet zoneId id old info op owner zone found read built =>
    have positive : zoneId ≠ 0 := by
      obtain ⟨zoneInfo, here, _⟩ := cat.zones.registry.lookup zone
      have pos := cat.zones.registry.positive _ _ here
      omega
    have touched : ∀ (v : Nat) (info : ServletInfo),
        (s.servlets.touchInfo zoneId).infoMap[v]? = some info →
        (info.servletId = v ∧ 1 ≤ info.version) ∨ (info = default ∧ v ≠ 0) := by
      intro v info found
      rcases Table.lookup_touch_some found with here | ⟨rfl, blank⟩
      · exact h.placed v info here
      · exact Or.inr ⟨blank, positive⟩
    refine ⟨touched, fun v info' found => ?_⟩
    rcases Table.lookup_insert_some found with ⟨number, rfl⟩ | ⟨_, found⟩
    · exact Or.inl ⟨number, h.modified read built⟩
    · exact touched v info' found

/-- Two names of one servlet are one name. -/
theorem ServletsTracked.name_unique {db : MetaDb} {s : Schema} (h : ServletsTracked db s)
    {key key' : Bytes} {v : Nat} (found : s.servlets.idMap[key]? = some v)
    (found' : s.servlets.idMap[key']? = some v) (nonzero : v ≠ 0) : key = key' := by
  obtain ⟨info, here, _, same⟩ := (h.named key v found).resolve_left nonzero
  obtain ⟨info', here', _, same'⟩ := (h.named key' v found').resolve_left nonzero
  cases Option.some.inj (here.symm.trans here')
  exact same.symm.trans same'

/-- A real info, wherever it was read, descends from the servlet of its number. -/
theorem ServletsTracked.read_alike {db : MetaDb} {s : Schema} (h : ServletsTracked db s)
    {zoneId v : Nat} {old known : ServletInfo} (read : s.servlets.infoMap.getD zoneId default = old)
    (here : s.servlets.infoMap[v]? = some known) (number : old.servletId = known.servletId)
    (nonzero : old.servletId ≠ 0) : old.identity = known.identity := by
  rcases Table.lookup_of_getD read with source | rfl
  · exact h.alike old known (Or.inl ⟨zoneId, source⟩) (Or.inl ⟨v, here⟩) number nonzero
  · exact absurd rfl nonzero

/-- The info that a name points to survives what is not done under that name. -/
theorem ServletsTracked.named_step {request : DiscoveryManagerRequest} {db : MetaDb} {s : Schema}
    {p : Plan Schema} (h : ServletsTracked db s) (step : SchemaStep request s p) :
    p.Preserves (fun _ s' => ∀ (key : Bytes) (v : Nat), s'.servlets.idMap[key]? = some v →
      v = 0 ∨ ∃ info : ServletInfo, s'.servlets.infoMap[v]? = some info ∧ info.servletId = v ∧
        info.servletKey = key) db := by
  cases step with
  | refused | namespaceHasZones | zoneHasServlets => exact h.named
  | createNamespace | dropNamespace | modifyNamespace | createZone | dropZone | modifyZone =>
    exact ⟨h.named, h.named⟩
  | createServlet info op built named parents absent number =>
    refine ⟨h.named, fun key v found => ?_⟩
    rcases Table.lookup_insert_some found with ⟨rfl, rfl⟩ | ⟨_, old⟩
    · exact Or.inr ⟨info, Table.lookup_insert_self .., rfl, rfl⟩
    · rcases h.named key v old with zero | ⟨known, here, own, same⟩
      · exact Or.inl zero
      · have le := h.bounded known (Or.inl ⟨v, here⟩)
        have ne : info.servletId ≠ v := by omega
        exact Or.inr ⟨known, (Table.lookup_insert_ne _ _ ne).trans here, own, same⟩
  | dropServlet zoneId other op owner zone found =>
    have touched : ∀ (key : Bytes) (v : Nat),
        (s.servlets.touchId request.servletInfo.servletKey).idMap[key]? = some v →
        s.servlets.idMap[key]? = some v ∨ v = 0 := by
      intro key v found
      rcases Table.lookup_touch_some found with old | ⟨_, blank⟩
      · exact Or.inl old
      · exact Or.inr blank
    refine ⟨fun key v found => ?_, fun key v found => ?_⟩
    · rcases touched key v found with old | zero
      · exact h.named key v old
      · exact Or.inl zero
    · obtain ⟨ne, found⟩ := Table.lookup_erase_some found
      rcases touched key v found with old | zero
      · rcases h.named key v old with zero | ⟨info, here, own, same⟩
        · exact Or.inl zero
        · by_cases nonzero : v = 0
          · exact Or.inl nonzero
          -- the erased number belongs to the erased name, or is zero
          have apart : (Table.touch s.servlets.idMap request.servletInfo.servletKey).getD
              request.servletInfo.servletKey 0 ≠ v := by
            intro eq
            rw [show (0 : Nat) = default from rfl, Table.getD_touch] at eq
            rcases Table.lookup_of_getD eq with target | zero
            · exact ne (h.name_unique target old nonzero)
            · exact nonzero zero
          exact Or.inr ⟨info, (Table.lookup_erase_ne _ apart).trans here, own, same⟩
      · exact Or.inl zero
  | modifyServlet zoneId id old info op owner zone found read built sameNames sameIds =>
    have kept : ∀ (key : Bytes) (v : Nat), s.servlets.idMap[key]? = some v →
        v = 0 ∨ ∃ info : ServletInfo, (s.servlets.touchInfo zoneId).infoMap[v]? = some info ∧
          info.servletId = v ∧ info.servletKey = key := by
      intro key v found
      rcases h.named key v found with zero | ⟨known, here, own, same⟩
      · exact Or.inl zero
      · exact Or.inr ⟨known, Table.lookup_touch_of_lookup here zoneId, own, same⟩
    refine ⟨kept, fun key v found => ?_⟩
    rcases Table.lookup_insert_some found with ⟨rfl, rfl⟩ | ⟨_, found⟩
    · exact Or.inr ⟨info, Table.lookup_insert_self .., rfl, rfl⟩
    · rcases h.named key v found with zero | ⟨known, here, own, same⟩
      · exact Or.inl zero
      · by_cases nonzero : v = 0
        · exact Or.inl nonzero
        by_cases eq : info.servletId = v
        · -- a real info was read, and it is the one of this number
          have identity : info.identity = old.identity := by rw [← built]; rfl
          have number := identity_servletId identity
          have descends := identity.trans (h.read_alike read here (by omega) (by omega))
          have here' : (((s.servlets.touchInfo zoneId).setServletInfo info).infoMap)[v]? =
              some info := by
            rw [← eq]
            exact Table.lookup_insert_self ..
          exact Or.inr ⟨info, here', eq, (identity_servletKey descends).trans same⟩
        · have touched := Table.lookup_touch_of_lookup here zoneId
          exact Or.inr ⟨known, (Table.lookup_insert_ne _ _ eq).trans touched, own, same⟩

theorem servletsTracked_step {request : DiscoveryManagerRequest} {db : MetaDb} {s : Schema}
    {p : Plan Schema} (h : ServletsTracked db s) (cat : Catalog db s)
    (step : SchemaStep request s p) : p.Preserves ServletsTracked db := by
  have facts := ((((step.known db).and (maxId_step step db .servletKind)).and
    (counted_step h.counted step)).and (h.stored_step step)).and
    ((h.placed_step cat step).and (h.named_step step))
  refine facts.imp ?_
  intro db' s' ⟨⟨⟨⟨known, ascend⟩, counted⟩, stored⟩, placed, named⟩
  constructor
  case counted => exact counted
  case bounded => exact fun info hinfo => h.bounded_of_origin ascend (known info hinfo)
  case alike =>
    exact fun a b ha hb number nonzero =>
      h.alike_of_origin (known a ha) (known b hb) number nonzero
  case placed => exact placed
  case named => exact named
  case stored => exact stored

/-- The reload takes its infos from the database, each under its own number. -/
theorem loaded_servlet {db : MetaDb} {rs : List SchemaRecord} (lists : Lists rs db) {s : Schema}
    {v : Nat} {info : ServletInfo}
    (found : (loadedSchema rs s.clear).servlets.infoMap[v]? = some info) :
    info.servletId = v ∧ ∃ w, db[constructServletKey w]? = some (.servletInfo info) := by
  rcases Table.lookup_insertAll_some found with ⟨info', mem, number, rfl⟩ | none
  · exact ⟨number, (mem_servlets lists).mp mem⟩
  · simp [Schema.clear] at none

theorem loaded_servletName {db : MetaDb} {rs : List SchemaRecord} (lists : Lists rs db) {s : Schema}
    {key : Bytes} {v : Nat} (found : (loadedSchema rs s.clear).servlets.idMap[key]? = some v) :
    ∃ info ∈ SchemaRecord.servlets rs, info.servletKey = key ∧ info.servletId = v ∧
      ∃ w, db[constructServletKey w]? = some (.servletInfo info) := by
  rcases Table.lookup_insertAll_some found with ⟨info, mem, same, number⟩ | none
  · exact ⟨info, mem, same, number, (mem_servlets lists).mp mem⟩
  · simp [Schema.clear] at none

theorem KnownServlet.of_reload {db : MetaDb} {s s₀ s' : Schema} (recorded : SchemaRecorded db)
    (load : loadSchema db s₀ = some s') {info : ServletInfo} (known : KnownServlet db s' info) :
    KnownServlet db s info := by
  obtain ⟨rs, lists, loaded⟩ := loadSchema_eq recorded s₀
  rw [loaded] at load
  cases Option.some.inj load
  rcases known with ⟨v, found⟩ | stored
  · exact Or.inr (loaded_servlet lists found).2
  · exact Or.inr stored

theorem ServletsTracked.reload {db : MetaDb} {s s₀ s' : Schema} (h : ServletsTracked db s)
    (cat : Catalog db s) (start : s₀ = s ∨ s₀ = {}) (load : loadSchema db s₀ = some s') :
    ServletsTracked db s' := by
  have counters := h.counted.reload cat.recorded start load
  have back : ∀ info, KnownServlet db s' info → KnownServlet db s info :=
    fun info known => known.of_reload cat.recorded load
  obtain ⟨rs, lists, loaded⟩ := loadSchema_eq cat.recorded s₀
  rw [loaded] at load
  cases Option.some.inj load
  constructor
  case counted =>
    intro kind
    rw [counters]
    exact h.counted kind
  case bounded =>
    intro info known
    have same : (loadedSchema rs s₀.clear).servlets.maxServletId = s.servlets.maxServletId :=
      counters .servletKind
    rw [same]
    exact h.bounded info (back info known)
  case alike => exact fun a b ha hb => h.alike a b (back a ha) (back b hb)
  case placed =>
    intro v info found
    obtain ⟨number, w, stored⟩ := loaded_servlet lists found
    exact Or.inl ⟨number, h.stored w info stored⟩
  case named =>
    intro key v found
    obtain ⟨info, mem, same, number, record⟩ := loaded_servletName lists found
    obtain ⟨last, _, _, here⟩ :
        ∃ last ∈ SchemaRecord.servlets rs, last.servletId = info.servletId ∧
          (loadedSchema rs s₀.clear).servlets.infoMap[info.servletId]? = some last :=
      Table.lookup_insertAll_of_mem mem
    rw [number] at here
    obtain ⟨own, stored⟩ := loaded_servlet lists here
    by_cases nonzero : v = 0
    · exact Or.inl nonzero
    have alike := h.alike last info (Or.inr stored) (Or.inr record) (by omega) (by omega)
    exact Or.inr ⟨last, here, own, (identity_servletKey alike).trans same⟩
  case stored => exact h.stored

theorem reachable_servletsTracked {r : Replica} (h : Reachable serialises ok r) :
    ServletsTracked r.db r.memory.schema := by
  have both : Catalog r.db r.memory.schema ∧ ServletsTracked r.db r.memory.schema := by
    refine schema_invariant (I := fun db s => Catalog db s ∧ ServletsTracked db s)
      ⟨catalog_empty, servletsTracked_empty⟩ ?_ ?_ ?_ h
    · exact fun same inv => ⟨inv.1.frame same, inv.2.frame same⟩
    · intro r request env p inv _ hp
      have step := schemaPlan_step hp
      exact ⟨Plan.run_preserves (catalog_step inv.1 step),
        Plan.run_preserves (servletsTracked_step inv.2 inv.1 step)⟩
    · intro db s s₀ s' inv start load
      exact ⟨(inv.1.reload start load).1, inv.2.reload inv.1 start load⟩
  exact both.2

end EA

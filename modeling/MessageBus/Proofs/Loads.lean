/-
# Loading beside a write

Loading all properties replaces the cache by what the object has told.  It does so in two steps: the
object tells its properties when the request is polled, and the cache learns them when what came of
it is taken up.  A write takes two steps, too, and the cache comes first there.  So there are six
orders in which the steps of a load and of a write can be taken.

In two of them the cache has what the field has in the end: the load is over before the value is
set, or the object has the value before it tells its properties.  In the four others the object
tells the old value, and the cache learns it after the new one: the proxy has lost its own write,
although the write succeeds (`World.load_loses_write`).  `World.load_beside_write` says of all six
what comes of them.

What the cache knows of the property changes in two moves only, the one that sets it and the one
that ends the load (`World.Loads.quiet`), and the field changes in one, the poll of the write
(`World.Backlog`).
-/
import MessageBus.Proofs.Writes

namespace MessageBus.World

variable {w : World} {p : Proxy} {f : PlainField} {x g : Nat} {name : String} {m : Move}
  {c e ms before after : List Move}

/-! ## 1. What a cache keeps -/

/-- What the proxy knows of a property stays, unless it learns something of it. -/
theorem cached_act (hw : w.Orderly) {a : Account} (ha : w.account? x = some a)
    (hquiet : ∀ {q cache}, q.interface = a.interface → w.Learns m x q cache →
      cache.get? name = q.cache.get? name) :
    (w.act m).cached x name = w.cached x name := by
  have hkeeps : ∃ a', (w.act m).account? x = some a' ∧ a'.interface = a.interface ∧
      a'.cache.get? name = a.cache.get? name := by
    refine act_keeps hw (P := fun v => ∃ a', v.account? x = some a' ∧ a'.interface = a.interface ∧
      a'.cache.get? name = a.cache.get? name) (fun {v v'} hc ⟨a', hv, hinterface, hcache⟩ => ?_)
      ⟨a, ha, rfl, rfl⟩
    rcases hc.account x with hsame | ⟨hnone, -⟩ | ⟨q, cache, hq, hlearns, hnew⟩
    · exact ⟨a', hsame.trans hv, hinterface, hcache⟩
    · rw [hv] at hnone
      cases hnone
    · rw [account?, hq, Option.map_some] at hv
      cases hv
      exact ⟨_, hnew, hinterface, (hquiet hinterface hlearns).trans hcache⟩
  obtain ⟨a', ha', -, hcache⟩ := hkeeps
  rw [cached, cached, ha', ha]
  exact hcache

/-! ## 2. A load -/

/-- In the run `ms`, the proxy `x`, which knows of properties what `p` knows, loads them all, and
learns nothing else of this one. -/
structure Loads (w : World) (ms : List Move) (x : Nat) (p : Proxy) (f : PlainField) (g : Nat)
    (c e : List Move) : Prop where
  /-- The object is asked after `c`, by the poll of the request, -/
  asked : c ++ [.poll g] <+: e
  /-- and the cache learns what it has told after `e`. -/
  ended : e ++ [.endInit x g] <+: ms
  request : ∃ q call, q.startInit = .ok call ∧ q.link = p.link ∧ q.target = p.target ∧
    (w.run c).tasks.get? g = some (.request (plainRequest q call .answer) .unsent)
  /-- Nobody else takes up what came of the request. -/
  kept : (w.run e).outcomes.get? g ≠ none
  quiet : ∀ {before m after q cache}, ms = before ++ m :: after →
    (w.run before).Learns m x q cache →
    before = e ∨ (∃ v, m = .setProperty x f.name v) ∨ cache.get? f.name = q.cache.get? f.name

/-- **What a load brings** is what the object told of the property when it was asked. -/
theorem Loads.cached (h : Loads w ms x p f g c e) (hholds : (w.run c).Holds p f) (hw : w.Orderly)
    (hp : w.proxies.get? x = some p)
    (hnodup : (p.interface.properties.map Property.name).Nodup) :
    ((w.run e).act (.endInit x g)).cached x f.name = ((w.run c).stored f).bind f.told := by
  obtain ⟨q, call, hstart, hlink, htarget, ht⟩ := h.request
  cases (Proxy.startInit_eq q).symm.trans hstart
  obtain ⟨me, hbus, hopen⟩ := hholds.isOpen
  -- The object answers when the request is polled.
  obtain ⟨o, hreaches, hplain, hstored⟩ :=
    hholds.reaches_asked (hw.aimed hp) htarget hopen "GetAll" (getAllBody q.target.interface) rfl
  have houtcome := hreaches.outcomeOf (hlink.trans hbus) ht
  rw [plainRequest, outcome_answeredBy] at houtcome
  -- Its answer is what is taken up.
  obtain ⟨reply, hreply⟩ := Option.ne_none_iff_exists'.mp h.kept
  obtain ⟨d, rfl⟩ := h.asked
  have hwc := (later_run c hw).orderly hw
  have hended := ended_of_settle hwc houtcome
  have hlaid : ((w.run c).act (.poll g)).outcomes.get? g = some reply := by
    rw [run_append, run_append] at hreply
    exact outcomes_ended d (orderly_act hwc _) hended.1 hended.2 hreply
  rw [outcomes_polled hwc, laid_request ht rfl, houtcome, Option.some_or] at hlaid
  obtain ⟨q', hq', -⟩ := proxy_run (c ++ [.poll g] ++ d) hw hp
  have hact : (((w.run (c ++ [.poll g] ++ d)).act (.endInit x g)).account? x)
      = some (q'.finishInit reply).1.account := by
    simp only [act, hreply, withProxy, dropOutcome, hq', Option.elim_some]
    exact (account?_insert rfl x).trans (if_pos rfl)
  rw [World.cached, hact, hstored, ← Option.some.inj hlaid]
  exact hplain.getAll hholds.declared hholds.access hnodup q'

/-- After the load, the proxy knows what it knew until it sets the property. -/
theorem Loads.cached_run (h : Loads w ms x p f g c e) (hw : w.Orderly)
    (hp : w.proxies.get? x = some p) (hholds : ∀ {before after}, ms = before ++ after →
      (w.run before).Holds p f) (mid : List Move) :
    ∀ {after : List Move}, ms = before ++ mid ++ after →
      observe (writes x f.name) (w.run before) mid = [] →
      e.length < before.length →
      (w.run (before ++ mid)).cached x f.name = (w.run before).cached x f.name := by
  induction mid using List.reverseRecOn with
  | nil => intro after _ _ _; rw [List.append_nil]
  | append_singleton mid m ih =>
    intro after hms hnone he
    have hms' : ms = before ++ mid ++ m :: after := by rw [hms]; simp
    rw [observe_append, ← run_append, observe_cons, observe_nil, List.append_nil,
      List.append_eq_nil_iff] at hnone
    rw [← ih hms' hnone.1 he, ← List.append_assoc, run_append, run_cons, run_nil]
    obtain ⟨q, hq, hinterface, -⟩ := proxy_run (before ++ mid) hw hp
    have ha : (w.run (before ++ mid)).account? x = some q.account := by
      rw [account?, hq, Option.map_some]
    refine cached_act ((later_run _ hw).orderly hw) ha fun {q' cache} hsame hlearns => ?_
    rcases h.quiet hms' hlearns with rfl | ⟨v, rfl⟩ | hkept
    · exact absurd he (by simp)
    · -- What the proxy could be set to, it would be set to.
      cases hlearns with
      | set hset =>
        obtain ⟨d, y, hd, hy, -, -⟩ := Proxy.startSet_eq_ok.mp hset
        have hdeclared := (hholds hms').declared
        have hd' := Proxy.property_eq_ok hd
        rw [hsame.trans hinterface, hdeclared] at hd'
        cases hd'
        have hproperty := Proxy.property_readWrite (hinterface ▸ hdeclared)
          (hholds hms').access .write
        rw [writes_set hq hproperty hy] at hnone
        cases hnone.2
      | told _ hs _ =>
        cases hs with
        | delivered hs => cases hs
    · exact hkept

/-! ## 3. One write and one load -/

/-- What is seen once in a run is seen in one move, and not before and after it. -/
theorem observe_eq_singleton {α : Type} {h : World → Move → List α} {z : α} :
    ∀ {ms : List Move} {w : World}, observe h w ms = [z] → ∃ before m after,
      ms = before ++ m :: after ∧ observe h w before = [] ∧ h (w.run before) m = [z] ∧
        observe h ((w.run before).act m) after = []
  | m :: ms, w, hz => by
    rw [observe_cons, List.append_eq_singleton_iff] at hz
    rcases hz with ⟨hm, hms⟩ | ⟨hm, hms⟩
    · obtain ⟨before, n, after, rfl, hbefore, hn, hafter⟩ := observe_eq_singleton hms
      exact ⟨m :: before, n, after, rfl, by rw [observe_cons, hm, hbefore, List.nil_append], hn,
        hafter⟩
    · exact ⟨[], m, ms, rfl, rfl, hm, hms⟩

/-- Of one thing that is seen in a run, a part of the run shows nothing, or the thing. -/
theorem observe_part {α : Type} {h : World → Move → List α} {z : α}
    (hz : observe h w ms = [z]) (hms : ms = before ++ after) :
    observe h w before = [] ∨ observe h w before = [z] := by
  rw [hms, observe_append, List.append_eq_singleton_iff] at hz
  exact hz.imp And.left And.left

variable {t : Nat} {u : Value}

/-- One write is the first of all. -/
theorem first_of_one (hone : observe (writes x name) w ms = [(t, u)]) {s : Nat}
    (hms : ms = before ++ after) (hs : s ∈ (underway x name w before).map Prod.fst) :
    ((underway x name w before).map Prod.fst).head? = some s := by
  have hpart : underway x name w before = [] ∨ underway x name w before = [(t, u)] := by
    unfold underway
    rcases observe_part hone hms with hnone | hall
    · rw [hnone]
      exact Or.inl rfl
    · rw [hall, List.filter_singleton]
      cases ((w.run before).tasks.get? t).isSome
      · exact Or.inl rfl
      · exact Or.inr rfl
  rcases hpart with hnone | hall
  · rw [hnone] at hs
    cases hs
  · rw [hall] at hs ⊢
    rw [List.map_singleton, List.mem_singleton] at hs
    rw [hs]
    rfl

/-- If the load is over when the value is set, the cache has this value in the end. -/
theorem Loads.cached_late (h : Loads w ms x p f g c e) (hw : w.Orderly)
    (hp : w.proxies.get? x = some p) (hundisturbed : Undisturbed w ms x p f)
    (hone : observe (writes x f.name) w ms = [(t, u)])
    (hlate : observe (writes x f.name) w e = []) : (w.run ms).cached x f.name = some u := by
  obtain ⟨rest, hrest⟩ := h.ended
  rw [← hrest, observe_append, observe_append, hlate] at hone
  obtain ⟨mid, m, after, rfl, -, hm, hafter⟩ :=
    observe_eq_singleton (show observe _ _ rest = [(t, u)] from hone)
  have hms : ms = e ++ [.endInit x g] ++ mid ++ [m] ++ after ++ [] := by rw [← hrest]; simp
  rw [← run_append] at hm hafter
  have hset : (w.run (e ++ [.endInit x g] ++ mid ++ [m])).cached x f.name = some u := by
    rcases writes_cases x f.name (w.run (e ++ [.endInit x g] ++ mid)) m with
      hnone | ⟨q, v, d, y, rfl, hq, hd, hy, hwrites⟩
    · rw [hnone] at hm
      cases hm
    · rw [hwrites] at hm
      cases hm
      rw [run_append, run_cons, run_nil]
      exact cached_set hq hd hy
  have hkept := h.cached_run hw hp hundisturbed.holds after hms
    (by rw [run_append, run_cons, run_nil]; exact hafter) (by simp)
  rw [← hset, ← hkept, hms, List.append_nil]

/-- If the value was set before the load is over, the cache has in the end what the object told. -/
theorem Loads.cached_early (h : Loads w ms x p f g c e) (hw : w.Orderly)
    (hp : w.proxies.get? x = some p) (hundisturbed : Undisturbed w ms x p f)
    (hnodup : (p.interface.properties.map Property.name).Nodup)
    (hone : observe (writes x f.name) w ms = [(t, u)])
    (hearly : observe (writes x f.name) w e = [(t, u)]) :
    (w.run ms).cached x f.name = ((w.run c).stored f).bind f.told := by
  obtain ⟨rest, hrest⟩ := h.ended
  obtain ⟨d, hd⟩ := h.asked
  have hc : ms = c ++ ([.poll g] ++ d ++ [.endInit x g] ++ rest) := by rw [← hrest, ← hd]; simp
  rw [← hrest, observe_append, observe_append, hearly] at hone
  have hnone : observe (writes x f.name) (w.run (e ++ [.endInit x g])) rest = [] :=
    List.append_right_eq_self.mp hone
  have hkept := h.cached_run hw hp hundisturbed.holds rest (by rw [hrest, List.append_nil]) hnone
    (by simp)
  rw [hrest, run_append, run_cons, run_nil] at hkept
  exact hkept.trans (h.cached (hundisturbed.holds hc) hw hp hnodup)

/-- **What comes of a load and a write** that are made beside each other.  When the write has run,
the field has the value that was set.  The cache has it, too, if the load was over before the value
was set, or the write had run before the object was asked; and else it has what the object tells of
the value from before the write. -/
theorem load_beside_write (past : List Move) (hp : (empty.run past).proxies.get? x = some p)
    {interface : String} {ds : List Declaration}
    (hbuilt : Interface.build interface ds = .ok p.interface)
    (h : Undisturbed (empty.run past) ms x p f)
    (hone : observe (writes x f.name) (empty.run past) ms = [(t, u)])
    (hran : underway x f.name (empty.run past) ms = [])
    (hload : Loads (empty.run past) ms x p f g c e) :
    ((empty.run past).run ms).stored f = some u ∧
      (observe (writes x f.name) (empty.run past) e = [] ∨
          written x f.name (empty.run past) c = [(t, u)] →
        ((empty.run past).run ms).cached x f.name = ((empty.run past).run ms).stored f) ∧
      (observe (writes x f.name) (empty.run past) e ≠ [] →
        written x f.name (empty.run past) c = [] →
        ((empty.run past).run ms).cached x f.name = ((empty.run past).stored f).bind f.told) := by
  have hw := orderly_run past
  have hbacklog := h.backlog hw hp fun hms _ hs => first_of_one hone hms hs
  have hstored : ((empty.run past).run ms).stored f = some u := by
    obtain ⟨hparted, hbacklog⟩ := hbacklog ms (List.append_nil ms).symm
    rw [hran, List.append_nil, hone] at hparted
    rw [hbacklog.stored, ← hparted]
    rfl
  obtain ⟨rest, hrest⟩ := hload.ended
  obtain ⟨d, hd⟩ := hload.asked
  have hc : ms = c ++ ([.poll g] ++ d ++ [.endInit x g] ++ rest) := by rw [← hrest, ← hd]; simp
  obtain ⟨-, hthen⟩ := hbacklog c hc
  have hnodup := Interface.properties_nodup hbuilt
  rcases observe_part hone (hrest.symm.trans (List.append_assoc _ _ _)) with hlate | hearly
  · have hcached := hload.cached_late hw hp h hone hlate
    exact ⟨hstored, fun _ => hcached.trans hstored.symm, fun hsome => absurd hlate hsome⟩
  · have hcached := hload.cached_early hw hp h hnodup hone hearly
    rw [hthen.stored] at hcached
    refine ⟨hstored, fun hcases => ?_, fun _ hnone => ?_⟩
    · rcases hcases with hnone | hwritten
      · rw [hnone] at hearly
        cases hearly
      · rw [hwritten] at hcached
        rw [hcached, hstored]
        exact hthen.fits (t, u) (hwritten ▸ List.mem_singleton_self _)
    · rw [hnone] at hcached
      exact hcached

/-! ## 4. Two orders -/

/-- What the proxy asks the gauge for with `getGauge` it learns, and nothing else, if the run does
nothing but set the level, make requests, poll them, and end the load. -/
theorem gauge_loads (hasked : c ++ [.poll 3] <+: e) (hended : e ++ [.endInit 0 3] <+: ms)
    (ht : ((empty.run gaugeMoves).run c).tasks.get? 3 = some (.request getGauge .unsent))
    (hkept : ((empty.run gaugeMoves).run e).outcomes.get? 3 ≠ none)
    (hmoves : ∀ m ∈ ms, (∃ v, m = .setProperty 0 "Level" v) ∨ (∃ r, m = .ask r) ∨
      (∃ t, m = .poll t) ∨ m = .endInit 0 3)
    (honce : ∀ {before after}, ms = before ++ .endInit 0 3 :: after → before = e)
    (hpolls : ∀ {before t after}, ms = before ++ .poll t :: after →
      ∃ r, ((empty.run gaugeMoves).run before).tasks.get? t = some (.request r .unsent)) :
    Loads (empty.run gaugeMoves) ms 0 gaugeProxy gaugeLevel 3 c e where
  asked := hasked
  ended := hended
  request := ⟨gaugeProxy, _, Proxy.startInit_eq _, rfl, rfl, ht⟩
  kept := hkept
  quiet := by
    intro before m after q cache hms hlearns
    rcases hmoves m (by rw [hms]; simp) with ⟨v, rfl⟩ | ⟨r, rfl⟩ | ⟨t, rfl⟩ | rfl
    · exact Or.inr (Or.inl ⟨v, rfl⟩)
    · cases hlearns with
      | told _ hs _ =>
        cases hs with
        | delivered hs => cases hs
    · -- No signals are handed out.
      obtain ⟨r, hr⟩ := hpolls hms
      cases hlearns with
      | told _ hs _ =>
        cases hs with
        | delivered hs =>
          simp only [handed, hr] at hs
          cases hs
    · exact Or.inl (honce hms)

/-- The level is set, and the write runs before everything is loaded. -/
def meetingMoves : List Move :=
  [.setProperty 0 "Level" (level ⟨7, holds_seven⟩), .poll 2, .ask getGauge, .poll 3, .endInit 0 3]

/-- The level is set, and everything is loaded before the write runs. -/
def crossingMoves : List Move :=
  [.setProperty 0 "Level" (level ⟨7, holds_seven⟩), .ask getGauge, .poll 3, .endInit 0 3, .poll 2]

theorem meeting_polls (hms : meetingMoves = before ++ .poll t :: after) :
    before = meetingMoves.take 1 ∧ t = 2 ∨ before = meetingMoves.take 3 ∧ t = 3 := by
  obtain ⟨hbefore, hmove⟩ := move_at_length hms
  generalize before.length = n at hbefore hmove
  match n with
  | 1 => cases hmove; exact Or.inl ⟨hbefore, rfl⟩
  | 3 => cases hmove; exact Or.inr ⟨hbefore, rfl⟩
  | 0 | 2 | 4 | n + 5 => cases hmove

theorem crossing_polls (hms : crossingMoves = before ++ .poll t :: after) :
    before = crossingMoves.take 2 ∧ t = 3 ∨ before = crossingMoves.take 4 ∧ t = 2 := by
  obtain ⟨hbefore, hmove⟩ := move_at_length hms
  generalize before.length = n at hbefore hmove
  match n with
  | 2 => cases hmove; exact Or.inl ⟨hbefore, rfl⟩
  | 4 => cases hmove; exact Or.inr ⟨hbefore, rfl⟩
  | 0 | 1 | 3 | n + 5 => cases hmove

theorem undisturbed_meeting :
    Undisturbed (empty.run gaugeMoves) meetingMoves 0 gaugeProxy gaugeLevel := by
  refine gauge_undisturbed (fun n (hn : n ≤ 5) => ?_) (by simp [meetingMoves]) fun hms => ?_
  · interval_cases n <;> exact gauge_holds rfl rfl rfl rfl
  · rcases meeting_polls hms with ⟨rfl, rfl⟩ | ⟨rfl, rfl⟩
    · exact Or.inl (.head _)
    · exact Or.inr (by rfl)

theorem undisturbed_crossing :
    Undisturbed (empty.run gaugeMoves) crossingMoves 0 gaugeProxy gaugeLevel := by
  refine gauge_undisturbed (fun n (hn : n ≤ 5) => ?_) (by simp [crossingMoves]) fun hms => ?_
  · interval_cases n <;> exact gauge_holds rfl rfl rfl rfl
  · rcases crossing_polls hms with ⟨rfl, rfl⟩ | ⟨rfl, rfl⟩
    · exact Or.inr (by rfl)
    · exact Or.inl (.head _)

/-- The load after the write has the level that was set. -/
theorem load_beside_write_gauge :
    (empty.run gaugeMoves).proxies.get? 0 = some gaugeProxy ∧
      Interface.build "org.example.Gauge" gaugeDeclarations = .ok gauge ∧
      Undisturbed (empty.run gaugeMoves) meetingMoves 0 gaugeProxy gaugeLevel ∧
      observe (writes 0 "Level") (empty.run gaugeMoves) meetingMoves
        = [(2, level ⟨7, by decide⟩)] ∧
      underway 0 "Level" (empty.run gaugeMoves) meetingMoves = [] ∧
      Loads (empty.run gaugeMoves) meetingMoves 0 gaugeProxy gaugeLevel 3 (meetingMoves.take 3)
        (meetingMoves.take 4) ∧
      ((empty.run gaugeMoves).run meetingMoves).stored gaugeLevel
        = some (level ⟨7, by decide⟩) ∧
      ((empty.run gaugeMoves).run meetingMoves).cached 0 "Level"
        = ((empty.run gaugeMoves).run meetingMoves).stored gaugeLevel := by
  have hloads : Loads (empty.run gaugeMoves) meetingMoves 0 gaugeProxy gaugeLevel 3
      (meetingMoves.take 3) (meetingMoves.take 4) := by
    refine gauge_loads ⟨_, rfl⟩ ⟨_, rfl⟩ (by rfl) nofun (by simp [meetingMoves]) (fun hms => ?_)
      fun hms => ?_
    · simp [meetingMoves, List.cons_eq_append_iff] at hms ⊢
      exact hms.1
    · rcases meeting_polls hms with ⟨rfl, rfl⟩ | ⟨rfl, rfl⟩ <;> exact ⟨_, rfl⟩
  have hboth := load_beside_write gaugeMoves (by rfl)
    (show Interface.build "org.example.Gauge" gaugeDeclarations = .ok gaugeProxy.interface by rfl)
    undisturbed_meeting (by rfl) (by rfl) hloads
  exact ⟨by rfl, by rfl, undisturbed_meeting, by rfl, by rfl, hloads, hboth.1,
    hboth.2.1 (Or.inr (by rfl))⟩

/-- **A load can lose a write**: when the write has run, the object has the level that was set, and
the proxy that has set it has the old one. -/
theorem load_loses_write :
    Undisturbed (empty.run gaugeMoves) crossingMoves 0 gaugeProxy gaugeLevel ∧
      Loads (empty.run gaugeMoves) crossingMoves 0 gaugeProxy gaugeLevel 3 (crossingMoves.take 2)
        (crossingMoves.take 3) ∧
      observe (writes 0 "Level") (empty.run gaugeMoves) crossingMoves
        = [(2, level ⟨7, by decide⟩)] ∧
      underway 0 "Level" (empty.run gaugeMoves) crossingMoves = [] ∧
      ((empty.run gaugeMoves).run crossingMoves).stored gaugeLevel
        = some (level ⟨7, by decide⟩) ∧
      ((empty.run gaugeMoves).run crossingMoves).cached 0 "Level"
        = some (level ⟨1, by decide⟩) := by
  refine ⟨undisturbed_crossing, ?_, by rfl, by rfl, by rfl, by rfl⟩
  refine gauge_loads ⟨_, rfl⟩ ⟨_, rfl⟩ (by rfl) nofun (by simp [crossingMoves]) (fun hms => ?_)
    fun hms => ?_
  · simp [crossingMoves, List.cons_eq_append_iff] at hms ⊢
    exact hms.1
  · rcases crossing_polls hms with ⟨rfl, rfl⟩ | ⟨rfl, rfl⟩ <;> exact ⟨_, rfl⟩

end MessageBus.World

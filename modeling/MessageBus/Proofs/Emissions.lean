/-
# Emissions walk what they found

While an emission walks its listeners, these may do anything to the relay: connect, disconnect, emit
again.  The main result, `Relay.emissions_walk_snapshots`, says that this never matters to an
emission that is under way.  It runs the listeners that were connected for its signal when it began,
each once and in the order in which they were connected, and returns their number; what happens
meanwhile is seen by the emissions that begin later.

What listeners do is left open.  A `Deed` is one thing that happens to a relay, and an emission that
is under way is one of those that may `proceed`, by one listener at a time; deeds of other emissions
and of anybody else may stand between any two of its steps.  So each way in which listeners may act
is a list of deeds, whether they decide beforehand or on the way, and a run of programs is one of
them (`Stage.perform_shows`).

The induction is over the deeds, and two things are carried through it at once.

* The listeners of the relay are told from its history: those that were connected and have not been
removed, in order (`Kept`).
* For each emission that has begun, what it has run and what it has still to run are together what
it found (`Walks`).
-/
import MessageBus.Relay.Program
import MessageBus.Proofs.Tables
import Mathlib.Data.List.Nodup
import Mathlib.Data.List.Range
import Mathlib.Data.List.Perm.Basic

namespace MessageBus.Relay

/-! ## 1. Reading a history -/

/-- The handles that were given out, with their signals. -/
def connections (h : List Occurrence) : List (Nat × String) :=
  h.filterMap fun
    | .connected handle signal => some (handle, signal)
    | _ => none

/-- The handles that were removed. -/
def removals (h : List Occurrence) : List Nat :=
  h.filterMap fun
    | .disconnected handle true => some handle
    | _ => none

/-- The listeners that an emission ran: handle, label and event. -/
def runs (emission : Nat) (h : List Occurrence) : List (Nat × String × SignalEvent) :=
  h.filterMap fun
    | .ran n handle label event => if n = emission then some (handle, label, event) else none
    | _ => none

/-- What an emission returned. -/
def endings (emission : Nat) (h : List Occurrence) : List Nat :=
  h.filterMap fun
    | .ended n listeners => if n = emission then some listeners else none
    | _ => none

/-- The handles that were given out and not removed, with their signals. -/
def registered (h : List Occurrence) : List (Nat × String) :=
  (connections h).filter (·.1 ∉ removals h)

section Readers

variable (h h' : List Occurrence) (n : Nat)

@[simp] theorem connections_append : connections (h ++ h') = connections h ++ connections h' :=
  List.filterMap_append

@[simp] theorem runs_append : runs n (h ++ h') = runs n h ++ runs n h' := List.filterMap_append

@[simp] theorem endings_append : endings n (h ++ h') = endings n h ++ endings n h' :=
  List.filterMap_append

end Readers

/-! ## 2. Deeds -/

/-- What a listener hears: its handle, its label and the event. -/
def hearing (event : SignalEvent) (l : Listening Listener) : Nat × String × SignalEvent :=
  (l.handle, l.listener.label, event)

/-- An emission that is under way: the listeners that it found, and those of them that have still to
run. -/
structure Emission where
  event : SignalEvent
  found : List (Listening Listener)
  left : List (Listening Listener)

/-- One thing that is done to a relay. -/
inductive Deed where
  | connect (signal : String) (listener : Listener)
  | disconnect (handle : Nat)
  /-- Begins an emission. -/
  | emit (event : SignalEvent)
  /-- Lets an emission run its next listener, or end if there is none. -/
  | proceed (emission : Nat)

/-- A relay, the emissions that are under way on it, and its history. -/
structure Scene where
  relay : Relay Listener
  underway : Table Nat Emission
  /-- How many emissions have begun. -/
  emissions : Nat
  history : List Occurrence

namespace Scene

/-- A new relay. -/
def empty : Scene := { relay := .empty, underway := .empty, emissions := 0, history := [] }

/-- What a deed does. -/
def act (s : Scene) : Deed → Scene
  | .connect signal listener =>
    { s with
      relay := (s.relay.connect signal listener).1
      history := s.history ++ [.connected (s.relay.connect signal listener).2 signal] }
  | .disconnect handle =>
    { s with
      relay := (s.relay.disconnect handle).1
      history := s.history ++ [.disconnected handle (s.relay.disconnect handle).2] }
  | .emit event =>
    { s with
      underway := s.underway.insert s.emissions
        ⟨event, s.relay.listening event.signal, s.relay.listening event.signal⟩
      emissions := s.emissions + 1
      history := s.history ++ [.began s.emissions event.signal] }
  | .proceed n =>
    match s.underway.get? n with
    | none => s
    | some ⟨event, found, l :: left⟩ =>
      { s with
        underway := s.underway.insert n ⟨event, found, left⟩
        history := s.history ++ [.ran n l.handle l.listener.label event] }
    | some ⟨_, found, []⟩ =>
      { s with
        underway := s.underway.erase n
        history := s.history ++ [.ended n found.length] }

/-- What a list of deeds does. -/
def run (s : Scene) (ds : List Deed) : Scene := ds.foldl act s

variable {s : Scene}

@[simp] theorem run_nil (s : Scene) : s.run [] = s := rfl

@[simp] theorem run_cons (s : Scene) (d : Deed) (ds : List Deed) :
    s.run (d :: ds) = (s.act d).run ds := rfl

theorem run_append (s : Scene) (ds es : List Deed) : s.run (ds ++ es) = (s.run ds).run es :=
  List.foldl_append

/-- What every deed keeps, a run keeps. -/
theorem run_keeps {P : Scene → Prop} (hact : ∀ s d, P s → P (s.act d)) {s : Scene} (h : P s)
    (ds : List Deed) : P (s.run ds) := by
  induction ds generalizing s with
  | nil => exact h
  | cons d ds ih => exact ih (hact s d h)

/-- What comes of the step of an emission that has a listener to run, -/
theorem act_proceed_cons {n : Nat} {event : SignalEvent} {found left : List (Listening Listener)}
    {l : Listening Listener} (h : s.underway.get? n = some ⟨event, found, l :: left⟩) :
    s.act (.proceed n)
      = { s with
          underway := s.underway.insert n ⟨event, found, left⟩
          history := s.history ++ [.ran n l.handle l.listener.label event] } := by
  simp only [act, h]

/-- of one that has none left, -/
theorem act_proceed_nil {n : Nat} {event : SignalEvent} {found : List (Listening Listener)}
    (h : s.underway.get? n = some ⟨event, found, []⟩) :
    s.act (.proceed n)
      = { s with
          underway := s.underway.erase n
          history := s.history ++ [.ended n found.length] } := by
  simp only [act, h]

/-- and of one that is not under way. -/
theorem act_proceed_none {n : Nat} (h : s.underway.get? n = none) : s.act (.proceed n) = s := by
  simp only [act, h]

/-- An emission that may proceed has a listener to run or none left. -/
theorem proceed_cases (s : Scene) (n : Nat) :
    s.underway.get? n = none ∨
      (∃ event found, s.underway.get? n = some ⟨event, found, []⟩) ∨
      ∃ event found l left, s.underway.get? n = some ⟨event, found, l :: left⟩ := by
  match h : s.underway.get? n with
  | none => exact Or.inl rfl
  | some ⟨event, found, []⟩ => exact Or.inr (Or.inl ⟨event, found, rfl⟩)
  | some ⟨event, found, l :: left⟩ => exact Or.inr (Or.inr ⟨event, found, l, left, rfl⟩)

/-! ## 3. The listeners are told from the history -/

/-- The relay agrees with its history. -/
structure Kept (s : Scene) : Prop where
  handles : (connections s.history).map Prod.fst = List.range s.relay.nextHandle
  listeners : s.relay.listeners.map (fun l => (l.handle, l.signal)) = registered s.history
  removedOnce : (removals s.history).Nodup
  removedGiven : ∀ handle ∈ removals s.history, handle < s.relay.nextHandle

theorem kept_empty : empty.Kept where
  handles := rfl
  listeners := rfl
  removedOnce := List.nodup_nil
  removedGiven := by simp [empty, removals]

/-- What neither connects nor disconnects changes nothing in that. -/
theorem Kept.of_eq (h : s.Kept) {s' : Scene} (hrelay : s'.relay = s.relay)
    (hconnections : connections s'.history = connections s.history)
    (hremovals : removals s'.history = removals s.history) : s'.Kept where
  handles := by rw [hconnections, hrelay]; exact h.handles
  listeners := by rw [registered, hconnections, hremovals, hrelay]; exact h.listeners
  removedOnce := by rw [hremovals]; exact h.removedOnce
  removedGiven := by rw [hremovals, hrelay]; exact h.removedGiven

/-- A handle was given out just if it is below the next one. -/
theorem Kept.mem_handles (h : s.Kept) {handle : Nat} :
    handle ∈ (connections s.history).map Prod.fst ↔ handle < s.relay.nextHandle := by
  rw [h.handles, List.mem_range]

/-- A handle is removed just if it was given out and not removed before. -/
theorem Kept.disconnect_iff (h : s.Kept) {handle : Nat} :
    (s.relay.disconnect handle).2 = true ↔ handle ∈ (registered s.history).map Prod.fst := by
  rw [← h.listeners]
  simp [Relay.disconnect]

theorem mem_registered {h : List Occurrence} {handle : Nat} :
    handle ∈ (registered h).map Prod.fst ↔
      handle ∈ (connections h).map Prod.fst ∧ handle ∉ removals h := by
  simp only [registered, List.mem_map, List.mem_filter, decide_eq_true_eq]
  constructor
  · rintro ⟨c, ⟨hc, hnot⟩, rfl⟩
    exact ⟨⟨c, hc, rfl⟩, hnot⟩
  · rintro ⟨⟨c, hc, rfl⟩, hnot⟩
    exact ⟨c, ⟨hc, hnot⟩, rfl⟩

theorem Kept.connect (h : s.Kept) (signal : String) (listener : Listener) :
    (s.act (.connect signal listener)).Kept := by
  have hnew : s.relay.nextHandle ∉ removals s.history := fun hmem =>
    Nat.lt_irrefl _ (h.removedGiven _ hmem)
  have hconnections : connections (s.act (.connect signal listener)).history
      = connections s.history ++ [(s.relay.nextHandle, signal)] := connections_append _ _
  have hremovals : removals (s.act (.connect signal listener)).history = removals s.history := by
    simp [act, removals]
  constructor
  · rw [hconnections, List.map_append, h.handles]
    exact List.range_succ.symm
  · rw [registered, hconnections, hremovals, List.filter_append]
    simp only [act, Relay.connect, List.map_append, h.listeners, registered]
    simp [hnew]
  · rw [hremovals]
    exact h.removedOnce
  · intro handle hmem
    rw [hremovals] at hmem
    exact Nat.lt_succ_of_lt (h.removedGiven handle hmem)

theorem Kept.disconnect (h : s.Kept) (handle : Nat) : (s.act (.disconnect handle)).Kept := by
  have hiff : (s.relay.disconnect handle).2 = true ↔ _ := h.disconnect_iff
  have hconnections : connections (s.act (.disconnect handle)).history
      = connections s.history := by
    simp [act, connections]
  have hlisteners : (s.act (.disconnect handle)).relay.listeners.map
      (fun l => (l.handle, l.signal)) = (registered s.history).filter (·.1 ≠ handle) := by
    rw [← h.listeners, List.filter_map]
    rfl
  cases hremoved : (s.relay.disconnect handle).2 with
  | true =>
    obtain ⟨hgiven, hnot⟩ := mem_registered.mp (hiff.mp hremoved)
    have hremovals : removals (s.act (.disconnect handle)).history
        = removals s.history ++ [handle] := by
      simp [act, removals, hremoved]
    constructor
    · rw [hconnections]
      exact h.handles
    · rw [hlisteners, registered, registered, hconnections, hremovals, List.filter_filter]
      refine List.filter_congr fun c _ => ?_
      simp [not_or, and_comm]
    · rw [hremovals, List.nodup_append]
      refine ⟨h.removedOnce, by simp, fun a ha b hb hab => hnot ?_⟩
      rw [List.mem_singleton] at hb
      exact hb ▸ hab ▸ ha
    · intro other hother
      rw [hremovals, List.mem_append, List.mem_singleton] at hother
      rcases hother with hother | rfl
      · exact h.removedGiven other hother
      · exact h.mem_handles.mp hgiven
  | false =>
    have hmem : handle ∉ (registered s.history).map Prod.fst := fun hmem => by
      rw [hiff.mpr hmem] at hremoved
      cases hremoved
    have hremovals : removals (s.act (.disconnect handle)).history = removals s.history := by
      simp [act, removals, hremoved]
    constructor
    · rw [hconnections]
      exact h.handles
    · rw [hlisteners, registered, registered, hconnections, hremovals]
      refine List.filter_eq_self.mpr fun c hc => decide_eq_true fun heq => hmem ?_
      exact List.mem_map.mpr ⟨c, hc, heq⟩
    · rw [hremovals]
      exact h.removedOnce
    · rw [hremovals]
      exact h.removedGiven

theorem Kept.act (h : s.Kept) : ∀ d, (s.act d).Kept
  | .connect signal listener => h.connect signal listener
  | .disconnect handle => h.disconnect handle
  | .emit event => h.of_eq rfl (by simp [Scene.act, connections]) (by simp [Scene.act, removals])
  | .proceed n => by
    rcases s.proceed_cases n with hn | ⟨event, found, hn⟩ | ⟨event, found, l, left, hn⟩
    · rw [act_proceed_none hn]
      exact h
    · rw [act_proceed_nil hn]
      exact h.of_eq rfl (by simp [connections]) (by simp [removals])
    · rw [act_proceed_cons hn]
      exact h.of_eq rfl (by simp [connections]) (by simp [removals])

theorem kept_run (ds : List Deed) : (empty.run ds).Kept :=
  run_keeps (P := Kept) (fun _ d h => h.act d) kept_empty ds

/-- **Who is connected for a signal.**  An emission finds the handles that were given out for its
signal and not removed, in the order in which they were given out. -/
theorem Kept.listening (h : s.Kept) (signal : String) :
    (s.relay.listening signal).map (·.handle)
      = ((registered s.history).filter (·.2 = signal)).map Prod.fst := by
  rw [← h.listeners, List.filter_map, List.map_map]
  rfl

theorem Kept.nodup_registered (h : s.Kept) : ((registered s.history).map Prod.fst).Nodup := by
  have hall : ((connections s.history).map Prod.fst).Nodup := by
    rw [h.handles]
    exact List.nodup_range
  exact hall.sublist (List.filter_sublist.map _)

/-- **How many are connected.**  The listeners of a signal are as many as were connected for it,
less those of them that were removed. -/
theorem Kept.count (h : s.Kept) (signal : String) :
    s.relay.count signal
        + (removals s.history).countP (fun handle => (handle, signal) ∈ connections s.history)
      = (connections s.history).countP (·.2 = signal) := by
  have hnodup : ((connections s.history).map Prod.fst).Nodup := by
    rw [h.handles]
    exact List.nodup_range
  have hpresent : s.relay.count signal
      = ((registered s.history).filter (·.2 = signal)).length := by
    rw [← List.length_map, ← h.listening signal, List.length_map]
    rfl
  -- The removed handles of the signal, read from the connections and from the removals.
  have hgone : (((connections s.history).filter (·.1 ∈ removals s.history)).filter
      (·.2 = signal)).map Prod.fst
        |>.Perm ((removals s.history).filter fun handle =>
          (handle, signal) ∈ connections s.history) := by
    refine (List.perm_ext_iff_of_nodup ?_ (h.removedOnce.filter _)).mpr fun handle => ?_
    · exact hnodup.sublist ((List.filter_sublist.trans List.filter_sublist).map _)
    · simp only [List.mem_map, List.mem_filter, decide_eq_true_eq]
      constructor
      · rintro ⟨⟨_, _⟩, ⟨⟨hc, hremoved⟩, rfl⟩, rfl⟩
        exact ⟨hremoved, hc⟩
      · rintro ⟨hremoved, hc⟩
        exact ⟨(handle, signal), ⟨⟨hc, hremoved⟩, rfl⟩, rfl⟩
  have hsplit := List.countP_eq_countP_filter_add (connections s.history) (·.2 = signal)
    (·.1 ∉ removals s.history)
  have hlength := hgone.length_eq
  rw [List.length_map] at hlength
  rw [hsplit, hpresent, List.countP_eq_length_filter (l := removals s.history), ← hlength,
    List.countP_eq_length_filter, List.countP_eq_length_filter]
  simp [registered]

/-! ## 4. Emissions walk what they found -/

/-- Nothing is said about emissions that are still to begin. -/
structure Fresh (s : Scene) : Prop where
  notUnderway : ∀ n, s.emissions ≤ n → s.underway.get? n = none
  notRun : ∀ n, s.emissions ≤ n → runs n s.history = []
  notEnded : ∀ n, s.emissions ≤ n → endings n s.history = []

theorem fresh_empty : empty.Fresh where
  notUnderway := fun _ _ => rfl
  notRun := fun _ _ => rfl
  notEnded := fun _ _ => rfl

/-- The emission `n` of an event has run a front part of what it found, and the rest stands before
it; or it has run all of that and has returned its length. -/
def Walks (n : Nat) (event : SignalEvent) (found : List (Listening Listener)) (s : Scene) : Prop :=
  n < s.emissions ∧
    ((∃ left, s.underway.get? n = some ⟨event, found, left⟩ ∧
        runs n s.history ++ left.map (hearing event) = found.map (hearing event) ∧
        endings n s.history = []) ∨
      (s.underway.get? n = none ∧ runs n s.history = found.map (hearing event) ∧
        endings n s.history = [found.length]))

section Steps

variable {n : Nat} {event : SignalEvent} {found : List (Listening Listener)}

/-- What concerns the emission `n` is the same. -/
structure Apart (n : Nat) (s s' : Scene) : Prop where
  underway : s'.underway.get? n = s.underway.get? n
  runs : Relay.runs n s'.history = Relay.runs n s.history
  endings : Relay.endings n s'.history = Relay.endings n s.history

/-- A deed other than the emission's own step does not concern it. -/
theorem apart_act {d : Deed} (hbegun : d = .proceed n → s.underway.get? n = none)
    (hbegins : ∀ e, d = .emit e → s.emissions ≠ n) : Apart n s (s.act d) := by
  cases d with
  | connect signal listener =>
    exact ⟨rfl, by simp [act, Relay.runs], by simp [act, Relay.endings]⟩
  | disconnect handle => exact ⟨rfl, by simp [act, Relay.runs], by simp [act, Relay.endings]⟩
  | emit e =>
    refine ⟨?_, by simp [act, Relay.runs], by simp [act, Relay.endings]⟩
    simp only [act, Table.get?_insert, if_neg (hbegins e rfl)]
  | proceed m =>
    by_cases hm : m = n
    · subst hm
      rw [act_proceed_none (hbegun rfl)]
      exact ⟨rfl, rfl, rfl⟩
    · rcases s.proceed_cases m with hn | ⟨e, f, hn⟩ | ⟨e, f, l, left, hn⟩
      · rw [act_proceed_none hn]
        exact ⟨rfl, rfl, rfl⟩
      · rw [act_proceed_nil hn]
        refine ⟨?_, by simp [Relay.runs], by simp [Relay.endings, hm]⟩
        rw [Table.get?_erase, if_neg hm]
      · rw [act_proceed_cons hn]
        refine ⟨?_, by simp [Relay.runs, hm], by simp [Relay.endings]⟩
        rw [Table.get?_insert, if_neg hm]

/-- Emissions begin one after the other. -/
theorem emissions_act (s : Scene) (d : Deed) : s.emissions ≤ (s.act d).emissions := by
  cases d with
  | connect signal listener => exact Nat.le_refl _
  | disconnect handle => exact Nat.le_refl _
  | emit e => exact Nat.le_succ _
  | proceed m =>
    rcases s.proceed_cases m with hn | ⟨e, f, hn⟩ | ⟨e, f, l, left, hn⟩
    · rw [act_proceed_none hn]
    · rw [act_proceed_nil hn]
    · rw [act_proceed_cons hn]

theorem Fresh.act (h : s.Fresh) (d : Deed) : (s.act d).Fresh := by
  have hapart : ∀ m, (s.act d).emissions ≤ m → Apart m s (s.act d) := by
    intro m hm
    refine apart_act (fun _ => h.notUnderway m (Nat.le_trans (s.emissions_act d) hm)) ?_
    rintro e rfl
    exact Nat.ne_of_lt hm
  have hle := s.emissions_act d
  exact
    { notUnderway := fun m hm =>
        (hapart m hm).underway.trans (h.notUnderway m (Nat.le_trans hle hm))
      notRun := fun m hm => (hapart m hm).runs.trans (h.notRun m (Nat.le_trans hle hm))
      notEnded := fun m hm => (hapart m hm).endings.trans (h.notEnded m (Nat.le_trans hle hm)) }

theorem fresh_run (ds : List Deed) : (empty.run ds).Fresh :=
  run_keeps (P := Fresh) (fun _ d h => h.act d) fresh_empty ds

/-- An emission begins with all that it found before it. -/
theorem walks_emit (h : s.Fresh) (event : SignalEvent) :
    Walks s.emissions event (s.relay.listening event.signal) (s.act (.emit event)) := by
  refine ⟨Nat.lt_succ_self _, Or.inl ⟨_, Table.get?_insert_self _ _ _, ?_, ?_⟩⟩
  · have hruns : runs s.emissions (s.act (.emit event)).history = [] := by
      simpa [act, runs] using h.notRun _ (Nat.le_refl _)
    rw [hruns, List.nil_append]
  · simpa [act, endings] using h.notEnded _ (Nat.le_refl _)

/-- An emission takes its own step from what stands before it. -/
theorem Walks.proceed (h : Walks n event found s) :
    Walks n event found (s.act (.proceed n)) := by
  obtain ⟨hlt, ⟨left, hunderway, hruns, hendings⟩ | hdone⟩ := h
  · match left with
    | [] =>
      rw [act_proceed_nil hunderway]
      refine ⟨hlt, Or.inr ⟨by simp [Table.get?_erase], ?_, ?_⟩⟩
      · simpa [runs] using hruns
      · rw [endings_append, hendings]
        simp [endings]
    | l :: left =>
      rw [act_proceed_cons hunderway]
      refine ⟨hlt, Or.inl ⟨left, Table.get?_insert_self _ _ _, ?_, ?_⟩⟩
      · rw [← hruns, runs_append, List.append_assoc]
        simp [runs, hearing]
      · simpa [endings] using hendings
  · rw [act_proceed_none hdone.1]
    exact ⟨hlt, Or.inr hdone⟩

/-- **What happens meanwhile is no matter of an emission that is under way.** -/
theorem Walks.act (h : Walks n event found s) (d : Deed) : Walks n event found (s.act d) := by
  by_cases hd : d = .proceed n
  · rw [hd]
    exact h.proceed
  · have hapart : Apart n s (s.act d) := by
      refine apart_act (fun hown => absurd hown hd) ?_
      rintro e rfl
      exact Nat.ne_of_gt h.1
    refine ⟨Nat.lt_of_lt_of_le h.1 (s.emissions_act d), ?_⟩
    rw [hapart.underway, hapart.runs, hapart.endings]
    exact h.2

theorem Walks.run (h : Walks n event found s) (ds : List Deed) : Walks n event found (s.run ds) :=
  run_keeps (P := Walks n event found) (fun _ d h => h.act d) h ds

end Steps

end Scene

/-! ## 5. Programs are lists of deeds -/

/-- A scene shows where a run of programs has come to. -/
structure Shows (s : Stage) (c : Scene) : Prop where
  relay : c.relay = s.relay
  emissions : c.emissions = s.emissions
  history : c.history = s.history

/-- Some deeds lead from a scene to one that shows a stage, and leave the emissions that were under
way where they were. -/
def Plays (c : Scene) (s : Stage) : Prop :=
  ∃ ds, Shows s (c.run ds) ∧ ∀ n, (c.run ds).underway.get? n = c.underway.get? n

variable {s s' : Stage} {c : Scene}

theorem Shows.plays (h : Shows s c) : Plays c s := ⟨[], h, fun _ => rfl⟩

/-- What one part of a run does and what another part does after it. -/
theorem Plays.trans (h : Plays c s) (hfresh : c.Fresh)
    (hnext : ∀ {c : Scene}, Shows s c → c.Fresh → Plays c s') : Plays c s' := by
  obtain ⟨ds, hshows, hunderway⟩ := h
  obtain ⟨es, hshows', hunderway'⟩ := hnext hshows
    (Scene.run_keeps (P := Scene.Fresh) (fun _ d h => h.act d) hfresh ds)
  refine ⟨ds ++ es, ?_, fun n => ?_⟩
  · rw [Scene.run_append]
    exact hshows'
  · rw [Scene.run_append]
    exact (hunderway' n).trans (hunderway n)

section Nested

variable {depth : Nat}
  (hperform : ∀ {s : Stage} {c : Scene}, Shows s c → c.Fresh → ∀ a,
    Plays c (s.perform depth a).1)

include hperform

/-- What a listener does. -/
theorem plays_body (body : List Action) : ∀ {s : Stage} {c : Scene}, Shows s c → c.Fresh →
    Plays c (body.foldl (fun s a => (s.perform depth a).1) s) := by
  induction body with
  | nil => exact fun hshows _ => hshows.plays
  | cons a body ih => exact fun hshows hfresh => (hperform hshows hfresh a).trans hfresh ih

/-- What an emission's listeners do, one after the other, while it waits for each of them. -/
theorem plays_listeners {n : Nat} {event : SignalEvent} {found : List (Listening Listener)}
    (left : List (Listening Listener)) : ∀ {s : Stage} {c : Scene}, Shows s c → c.Fresh →
    c.underway.get? n = some ⟨event, found, left⟩ →
    ∃ ds, Shows (left.foldl (fun s l => l.listener.body.foldl
        (fun s a => (s.perform depth a).1) (s.note (.ran n l.handle l.listener.label event))) s)
          (c.run ds) ∧
      (c.run ds).underway.get? n = some ⟨event, found, []⟩ ∧
      ∀ m, m ≠ n → (c.run ds).underway.get? m = c.underway.get? m := by
  induction left with
  | nil => exact fun {s c} hshows _ hunderway => ⟨[], hshows, hunderway, fun _ _ => rfl⟩
  | cons l left ih =>
    intro s c hshows hfresh hunderway
    have hact := Scene.act_proceed_cons hunderway
    have hran : Shows (s.note (.ran n l.handle l.listener.label event)) (c.act (.proceed n)) := by
      rw [hact]
      exact ⟨hshows.relay, hshows.emissions, congrArg (· ++ [_]) hshows.history⟩
    obtain ⟨ds, hbody, hsame⟩ := plays_body hperform l.listener.body hran (hfresh.act _)
    have hleft : ((c.act (.proceed n)).run ds).underway.get? n = some ⟨event, found, left⟩ := by
      rw [hsame, hact]
      exact Table.get?_insert_self _ _ _
    obtain ⟨es, hrest, hdone, hothers⟩ := ih hbody
      (Scene.run_keeps (P := Scene.Fresh) (fun _ d h => h.act d) (hfresh.act _) ds) hleft
    refine ⟨.proceed n :: (ds ++ es), ?_, ?_, fun m hm => ?_⟩
    · rw [Scene.run_cons, Scene.run_append]
      exact hrest
    · rw [Scene.run_cons, Scene.run_append]
      exact hdone
    · rw [Scene.run_cons, Scene.run_append, hothers m hm, hsame, hact, Table.get?_insert,
        if_neg (Ne.symm hm)]

/-- An emission is a deed, then what its listeners do, and then the step that ends it. -/
theorem plays_emit (hshows : Shows s c) (hfresh : c.Fresh) (event : SignalEvent)
    (hbudget : s.budget ≠ 0) :
    ∃ ds, Shows (s.perform (depth + 1) (.emit event)).1 (c.run (.emit event :: ds)) ∧
      ∀ n, (c.run (.emit event :: ds)).underway.get? n = c.underway.get? n := by
  have hbegun : Shows ({ s with budget := s.budget - 1, emissions := s.emissions + 1 }.note
      (.began s.emissions event.signal)) (c.act (.emit event)) :=
    ⟨hshows.relay, congrArg (· + 1) hshows.emissions, by
      simp only [Scene.act, Stage.note, hshows.emissions, hshows.history]⟩
  have hunderway : (c.act (.emit event)).underway.get? s.emissions
      = some ⟨event, s.relay.listening event.signal, s.relay.listening event.signal⟩ := by
    rw [← hshows.emissions, ← hshows.relay]
    exact Table.get?_insert_self _ _ _
  obtain ⟨ds, hran, hleft, hothers⟩ := plays_listeners hperform (s.relay.listening event.signal)
    hbegun (hfresh.act _) hunderway
  have hact := Scene.act_proceed_nil hleft
  have hrun : c.run (.emit event :: (ds ++ [.proceed s.emissions]))
      = ((c.act (.emit event)).run ds).act (.proceed s.emissions) := by
    rw [Scene.run_cons, Scene.run_append]
    rfl
  refine ⟨ds ++ [.proceed s.emissions], ?_, fun m => ?_⟩
  · rw [hrun, hact, Stage.perform, if_neg hbudget]
    exact ⟨hran.relay, hran.emissions, congrArg (· ++ [_]) hran.history⟩
  · rw [hrun, hact, Table.get?_erase]
    by_cases hm : s.emissions = m
    · rw [if_pos hm, hfresh.notUnderway m (by rw [hshows.emissions, hm])]
    · rw [if_neg hm, hothers m (Ne.symm hm)]
      simp only [Scene.act, Table.get?_insert, hshows.emissions, if_neg hm]

end Nested

/-- Connecting is one deed, -/
theorem plays_connect (h : Shows s c) (signal : String) (listener : Listener) :
    Plays c (s.connect signal listener) := by
  refine ⟨[.connect signal listener], ⟨?_, h.emissions, ?_⟩, fun _ => rfl⟩
  · simp only [Scene.run_cons, Scene.run_nil, Scene.act, h.relay]
    rfl
  · simp only [Scene.run_cons, Scene.run_nil, Scene.act, h.relay, h.history]
    rfl

/-- and so is disconnecting, if there is a handle under the label. -/
theorem plays_disconnect (h : Shows s c) (label : String) : Plays c (s.disconnect label).1 := by
  unfold Stage.disconnect
  split
  · exact h.plays
  · rename_i handle _
    refine ⟨[.disconnect handle], ⟨?_, h.emissions, ?_⟩, fun _ => rfl⟩
    · simp only [Scene.run_cons, Scene.run_nil, Scene.act, h.relay]
      rfl
    · simp only [Scene.run_cons, Scene.run_nil, Scene.act, h.relay, h.history]
      rfl

/-- **What a program does is a list of deeds**, by induction on how deep its emissions are nested.
Each emission that it begins ends. -/
theorem perform_shows (depth : Nat) : ∀ {s : Stage} {c : Scene}, Shows s c → c.Fresh →
    ∀ a, Plays c (s.perform depth a).1 := by
  induction depth with
  | zero =>
    intro s c hshows hfresh a
    cases a with
    | connect label signal body => exact plays_connect hshows signal ⟨label, body⟩
    | disconnect label => exact plays_disconnect hshows label
    | emit event => exact hshows.plays
    | count signal => exact hshows.plays
  | succ depth ih =>
    intro s c hshows hfresh a
    cases a with
    | connect label signal body => exact plays_connect hshows signal ⟨label, body⟩
    | disconnect label => exact plays_disconnect hshows label
    | count signal => exact hshows.plays
    | emit event =>
      by_cases hbudget : s.budget = 0
      · rw [Stage.perform, if_pos hbudget]
        exact hshows.plays
      · obtain ⟨ds, hemitted⟩ := plays_emit ih hshows hfresh event hbudget
        exact ⟨_, hemitted⟩

/-- What a list of steps does, one after the other. -/
def Stage.play (s : Stage) (as : List Action) : Stage := as.foldl (fun s a => (s.act a).1) s

theorem play_shows (as : List Action) : ∀ {s : Stage} {c : Scene}, Shows s c → c.Fresh →
    Plays c (s.play as) := by
  induction as with
  | nil => exact fun hshows _ => hshows.plays
  | cons a as ih =>
    exact fun {s c} hshows hfresh => (perform_shows s.budget hshows hfresh a).trans hfresh ih

/-! ## 6. What programs keep -/

/-- No handle is there twice, and none that is there will be given out again. -/
def Tidy {α : Type} (r : Relay α) : Prop :=
  (r.listeners.map (·.handle)).Nodup ∧ ∀ l ∈ r.listeners, l.handle < r.nextHandle

section Tidy

variable {α : Type} {r : Relay α}

theorem tidy_empty : (empty : Relay α).Tidy := ⟨List.nodup_nil, by simp [empty]⟩

theorem Tidy.connect (h : r.Tidy) (signal : String) (listener : α) :
    (r.connect signal listener).1.Tidy := by
  obtain ⟨hnodup, hbelow⟩ := h
  constructor
  · simp only [Relay.connect, List.map_append, List.map_cons, List.map_nil]
    rw [List.nodup_append]
    refine ⟨hnodup, by simp, fun n hn m hm hnm => ?_⟩
    obtain ⟨l, hl, rfl⟩ := List.mem_map.mp hn
    rw [List.mem_singleton.mp hm] at hnm
    exact absurd hnm (Nat.ne_of_lt (hbelow l hl))
  · intro l hl
    rcases List.mem_append.mp hl with hl | hl
    · exact Nat.lt_succ_of_lt (hbelow l hl)
    · rw [List.mem_singleton.mp hl]
      exact Nat.lt_succ_self _

theorem Tidy.disconnect (h : r.Tidy) (handle : Nat) : (r.disconnect handle).1.Tidy :=
  ⟨h.1.sublist (List.filter_sublist.map _), fun l hl => h.2 l (List.mem_filter.mp hl).1⟩

theorem Tidy.nodup_listening (h : r.Tidy) (signal : String) :
    ((r.listening signal).map (·.handle)).Nodup :=
  h.1.sublist (List.filter_sublist.map _)

end Tidy

theorem Scene.tidy_act {c : Scene} (h : c.relay.Tidy) : ∀ d, (c.act d).relay.Tidy
  | .connect signal listener => h.connect signal listener
  | .disconnect handle => h.disconnect handle
  | .emit _ => h
  | .proceed n => by
    rcases c.proceed_cases n with hn | ⟨event, found, hn⟩ | ⟨event, found, l, left, hn⟩
    · rw [Scene.act_proceed_none hn]
      exact h
    · rw [Scene.act_proceed_nil hn]
      exact h
    · rw [Scene.act_proceed_cons hn]
      exact h

/-- Programs keep a relay tidy. -/
theorem Tidy.act {relay : Relay Listener} (h : relay.Tidy) (labels : Table String Nat)
    (budget : Nat) (a : Action) : ((Stage.start relay labels budget).act a).1.relay.Tidy := by
  have hfresh : Scene.Fresh ⟨relay, .empty, 0, []⟩ :=
    ⟨fun _ _ => rfl, fun _ _ => rfl, fun _ _ => rfl⟩
  obtain ⟨ds, hshows, -⟩ := perform_shows budget (s := Stage.start relay labels budget)
    (c := ⟨relay, .empty, 0, []⟩) ⟨rfl, rfl, rfl⟩ hfresh a
  have hrun := Scene.run_keeps (P := fun c => c.relay.Tidy) (fun _ d h => Scene.tidy_act h d) h ds
    (s := ⟨relay, .empty, 0, []⟩)
  rw [hshows.relay] at hrun
  exact hrun

/-! ### One emission alone

When there is budget for one emission only, what is heard is what that one found. -/

theorem heard_perform (s : Stage) (a : Action) : (s.perform 0 a).1.heard = s.heard := by
  cases a with
  | connect label signal body =>
    simp [Stage.perform, Stage.connect, Stage.note, Stage.heard]
  | disconnect label =>
    simp only [Stage.perform, Stage.disconnect]
    split
    · rfl
    · simp [Stage.note, Stage.heard]
  | emit event => rfl
  | count signal => rfl

theorem heard_body (body : List Action) (s : Stage) :
    (body.foldl (fun s a => (s.perform 0 a).1) s).heard = s.heard := by
  induction body generalizing s with
  | nil => rfl
  | cons a body ih => exact (ih _).trans (heard_perform s a)

theorem heard_listeners (n : Nat) (event : SignalEvent) (left : List (Listening Listener))
    (s : Stage) :
    (left.foldl (fun s l => l.listener.body.foldl (fun s a => (s.perform 0 a).1)
        (s.note (.ran n l.handle l.listener.label event))) s).heard
      = s.heard ++ left.map fun l => (l.listener.label, event) := by
  induction left generalizing s with
  | nil => simp
  | cons l left ih =>
    rw [List.foldl_cons, ih, heard_body]
    simp [Stage.note, Stage.heard]

theorem heard_ended (s : Stage) (n k : Nat) : (s.note (.ended n k)).heard = s.heard := by
  simp [Stage.note, Stage.heard]

/-- The listeners hear the event in the order in which they were connected. -/
theorem heard_emit (relay : Relay Listener) (labels : Table String Nat) (event : SignalEvent) :
    ((Stage.start relay labels 1).act (.emit event)).1.heard
      = (relay.listening event.signal).map fun l => (l.listener.label, event) := by
  rw [Stage.act, Stage.start, Stage.perform, if_neg (Nat.succ_ne_zero 0)]
  simp only [Nat.sub_self, Nat.zero_add]
  rw [heard_ended, heard_listeners]
  rfl

/-! ## 7. The laws of a relay -/

/-- The laws that the deeds `ds` obey on a relay that is new at first. -/
structure Lawful (ds : List Deed) : Prop where
  /-- Handles are given out in turn and never again. -/
  handles : (connections (Scene.empty.run ds).history).map Prod.fst
    = List.range (Scene.empty.run ds).relay.nextHandle
  /-- The listeners are those that were connected and have not been removed, in the order in which
  they were connected. -/
  listeners : (Scene.empty.run ds).relay.listeners.map (fun l => (l.handle, l.signal))
    = registered (Scene.empty.run ds).history
  /-- A handle is removed just if it was given out and has not been removed before, -/
  disconnected (before after : List Deed) (handle : Nat)
    (hds : ds = before ++ .disconnect handle :: after) :
    ((Scene.empty.run before).relay.disconnect handle).2 = true ↔
      handle ∈ (connections (Scene.empty.run before).history).map Prod.fst ∧
        handle ∉ removals (Scene.empty.run before).history
  /-- so that none is removed twice. -/
  removedOnce : (removals (Scene.empty.run ds).history).Nodup
  /-- A signal has as many listeners as were connected for it, less those that were removed. -/
  counted (signal : String) :
    (Scene.empty.run ds).relay.count signal
        + (removals (Scene.empty.run ds).history).countP
          (fun handle => (handle, signal) ∈ connections (Scene.empty.run ds).history)
      = (connections (Scene.empty.run ds).history).countP (·.2 = signal)
  /-- An emission finds the listeners that are registered for its signal when it begins, each once
  and in order. -/
  found (before after : List Deed) (event : SignalEvent)
    (hds : ds = before ++ .emit event :: after) :
    ((Scene.empty.run before).relay.listening event.signal).map (·.handle)
        = ((registered (Scene.empty.run before).history).filter (·.2 = event.signal)).map Prod.fst ∧
      (((Scene.empty.run before).relay.listening event.signal).map (·.handle)).Nodup
  /-- Whatever happens meanwhile, what it has run is a front part of what it found, and it returns
  when it has run all of that, with their number. -/
  walked (before after : List Deed) (event : SignalEvent)
    (hds : ds = before ++ .emit event :: after) :
    let n := (Scene.empty.run before).emissions
    let found := (Scene.empty.run before).relay.listening event.signal
    runs n (Scene.empty.run ds).history <+: found.map (hearing event) ∧
      (endings n (Scene.empty.run ds).history = [] ∨
        runs n (Scene.empty.run ds).history = found.map (hearing event) ∧
          endings n (Scene.empty.run ds).history = [found.length])
  /-- It has returned when it is not under way any more. -/
  returned (before after : List Deed) (event : SignalEvent)
    (hds : ds = before ++ .emit event :: after)
    (hover : (Scene.empty.run ds).underway.get? (Scene.empty.run before).emissions = none) :
    endings (Scene.empty.run before).emissions (Scene.empty.run ds).history
      = [((Scene.empty.run before).relay.listening event.signal).length]

/-- Deeds obey the laws, whatever they are. -/
theorem lawful (ds : List Deed) : Lawful ds := by
  have hkept := Scene.kept_run ds
  have hwalks : ∀ before after event, ds = before ++ .emit event :: after →
      Scene.Walks (Scene.empty.run before).emissions event
        ((Scene.empty.run before).relay.listening event.signal) (Scene.empty.run ds) := by
    rintro before after event rfl
    rw [Scene.run_append]
    exact (Scene.walks_emit (Scene.fresh_run before) event).run after
  constructor
  · exact hkept.handles
  · exact hkept.listeners
  · intro before after handle _
    rw [(Scene.kept_run before).disconnect_iff, Scene.mem_registered]
  · exact hkept.removedOnce
  · exact hkept.count
  · intro before after event _
    have hbefore := Scene.kept_run before
    refine ⟨hbefore.listening event.signal, ?_⟩
    rw [hbefore.listening event.signal]
    exact hbefore.nodup_registered.sublist (List.filter_sublist.map _)
  · intro before after event hds
    obtain ⟨-, ⟨left, -, hruns, hendings⟩ | ⟨-, hruns, hendings⟩⟩ := hwalks before after event hds
    · exact ⟨⟨_, hruns⟩, Or.inl hendings⟩
    · exact ⟨hruns ▸ List.prefix_refl _, Or.inr ⟨hruns, hendings⟩⟩
  · intro before after event hds hover
    obtain ⟨-, ⟨left, hunderway, -⟩ | ⟨-, -, hendings⟩⟩ := hwalks before after event hds
    · rw [hover] at hunderway
      cases hunderway
    · exact hendings

/-- What comes of the next step of a program, after the run that has led to the stage `s`. -/
structure Follows (s : Stage) : Prop where
  /-- What was done is a list of deeds, and every emission that was begun has returned. -/
  deeds : ∃ ds, Shows s (Scene.empty.run ds) ∧ ∀ n, (Scene.empty.run ds).underway.get? n = none
  /-- An emission runs what it finds and returns the number, whatever its listeners do. -/
  emitted (event : SignalEvent) (hbudget : s.budget ≠ 0) :
    runs s.emissions (s.act (.emit event)).1.history
        = (s.relay.listening event.signal).map (hearing event) ∧
      endings s.emissions (s.act (.emit event)).1.history = [s.relay.count event.signal] ∧
      (s.act (.emit event)).2 = .emitted (s.relay.count event.signal)
  /-- The handle under a label is removed just if it has not been removed before. -/
  disconnected (label : String) (handle : Nat) (hlabel : s.labels.get? label = some handle) :
    (s.act (.disconnect label)).2 = .disconnected
      (some ((registered s.history).any fun c => c.1 = handle))
  /-- The listeners of a signal are counted. -/
  counted (signal : String) :
    (s.act (.count signal)).2 = .counted ((registered s.history).countP fun c => c.2 = signal)

theorem follows (budget : Nat) (as : List Action) :
    Follows ((Stage.start .empty .empty budget).play as) := by
  have hplays : Plays .empty ((Stage.start .empty .empty budget).play as) :=
    play_shows as ⟨rfl, rfl, rfl⟩ Scene.fresh_empty
  generalize (Stage.start .empty .empty budget).play as = s at hplays
  obtain ⟨ds, hshows, hover⟩ := hplays
  have hkept := Scene.kept_run ds
  have hlisteners := hkept.listeners
  rw [hshows.relay, hshows.history] at hlisteners
  refine ⟨⟨ds, hshows, hover⟩, fun event hbudget => ?_, fun label handle hlabel => ?_,
    fun signal => ?_⟩
  · obtain ⟨depth, hdepth⟩ := Nat.exists_eq_succ_of_ne_zero hbudget
    obtain ⟨es, hemitted, hunderway⟩ := plays_emit (perform_shows depth) hshows
      (Scene.fresh_run ds) event hbudget
    have hact : s.act (.emit event) = s.perform (depth + 1) (.emit event) := by
      rw [Stage.act, hdepth]
    have hlaws := lawful (ds ++ .emit event :: es)
    have hreturned := hlaws.returned ds es event rfl
    obtain ⟨-, hwalked⟩ := hlaws.walked ds es event rfl
    rw [Scene.run_append] at hreturned hwalked
    have hendings := hreturned ((hunderway _).trans (hover _))
    rw [hemitted.history, hshows.emissions, hshows.relay] at hendings hwalked
    rw [hact]
    refine ⟨?_, hendings, ?_⟩
    · rcases hwalked with hnone | ⟨hruns, -⟩
      · rw [hendings] at hnone
        cases hnone
      · exact hruns
    · rw [Stage.perform, if_neg hbudget]
      rfl
  · have hact : s.act (.disconnect label) = ((s.disconnect label).1,
        .disconnected (s.disconnect label).2) := by
      unfold Stage.act
      cases s.budget <;> rfl
    rw [hact, Stage.disconnect, hlabel, ← hlisteners, List.any_map]
    rfl
  · have hact : s.act (.count signal) = (s, .counted (s.relay.count signal)) := by
      unfold Stage.act
      cases s.budget <;> rfl
    rw [hact, ← hlisteners, List.countP_map, List.countP_eq_length_filter]
    rfl

/-- **Emissions walk what they found**, whatever happens meanwhile: every list of deeds on a relay
obeys its laws, and what programs do is such a list. -/
theorem emissions_walk_snapshots :
    (∀ ds : List Deed, Lawful ds) ∧
      ∀ budget as, Follows ((Stage.start .empty .empty budget).play as) :=
  ⟨lawful, follows⟩

/-- The first listener removes the second and itself, connects a third and emits again: the second
still runs for the first emission, and the third for the second one only. -/
example :
    let event : SignalEvent := ⟨":1.1", "s", []⟩
    let s := (Stage.start .empty .empty 2).play
      [.connect "a" "s" [.disconnect "b", .disconnect "a", .connect "c" "s" [], .emit event],
        .connect "b" "s" [], .emit event]
    (runs 0 s.history).map Prod.fst = [0, 1] ∧ (runs 1 s.history).map Prod.fst = [2] := by
  decide +kernel

end MessageBus.Relay

/-
# Operations on a bus

All that is done on a bus, through any of its connections and by the bus itself, is a list of
operations, and a state of a bus is reached if such a list leads to it (`Bus.run`).  An operation
that fails changes nothing.

This module has what one operation does and what every run keeps.

* Whether a connection is open is changed by `connect` and `close` alone (`Bus.isOpen_apply`), so in
the end it is a matter of the past: the connection has been opened, and it has not been closed since
(`Bus.isOpen_run`).
* The owners in the table of names and in the keys of objects are open connections (`Bus.Owned`).
Only an open connection can take a name or export an object, and closing it removes what it has.
* Subscriptions come through `subscribe` alone, and a connection that is closed has lost those that
it had (`Bus.Trims`).  That it gets no new ones then is not so: `subscribe` does not look whether
the connection is open.
-/
import MessageBus.Proofs.Queues
import Mathlib.Data.List.Induction

namespace MessageBus.Bus

variable {η σ : Type} {b b' b'' : Bus η σ}

/-! ## 1. Operations -/

/-- One thing that is done on a bus. -/
inductive Operation (η σ : Type) where
  | connect
  | close (me : String)
  | ownName (me name : String)
  | releaseName (me name : String)
  | register (me path interface : String) (handler : η)
  | unregister (id : Nat)
  | subscribe (me : String) (rule : SignalRule) (sink : σ)
  | unsubscribe (id : Nat)
  | emit (me : String) (m : SignalMessage)
  /-- Hands out the queue of a connection. -/
  | drain (c : String)

/-- What an operation leaves behind. -/
def apply (b : Bus η σ) : Operation η σ → Bus η σ
  | .connect => b.connect.1
  | .close me => b.close me
  | .ownName me name => (b.ownName me name).toOption.getD b
  | .releaseName me name => (b.releaseName me name).1
  | .register me path interface handler =>
    ((b.register me path interface handler).toOption.map Prod.fst).getD b
  | .unregister id => b.unregister id
  | .subscribe me rule sink => (b.subscribe me rule sink).1
  | .unsubscribe id => b.unsubscribe id
  | .emit me m => (b.emit me m).toOption.getD b
  | .drain c => (b.drain c).1

/-- What a list of operations leaves behind. -/
def run (b : Bus η σ) (ops : List (Operation η σ)) : Bus η σ := ops.foldl apply b

@[simp] theorem run_nil (b : Bus η σ) : b.run [] = b := rfl

@[simp] theorem run_cons (b : Bus η σ) (op : Operation η σ) (ops : List (Operation η σ)) :
    b.run (op :: ops) = (b.apply op).run ops := rfl

theorem run_append (b : Bus η σ) (ops ops' : List (Operation η σ)) :
    b.run (ops ++ ops') = (b.run ops).run ops' := List.foldl_append

/-- What every operation keeps, a run keeps. -/
theorem run_keeps {P : Bus η σ → Prop} (happly : ∀ b op, P b → P (b.apply op)) (h : P b)
    (ops : List (Operation η σ)) : P (b.run ops) := by
  induction ops generalizing b with
  | nil => exact h
  | cons op ops ih => exact ih (happly b op h)

/-! ## 2. What makes an operation succeed -/

theorem checkOpen_eq_ok {me : String} {u : Unit} :
    b.checkOpen me = .ok u ↔ b.isOpen me = true := by
  unfold checkOpen
  split <;> simp_all

/-- A name is taken by an open connection, if it is free or its own already. -/
theorem ownName_eq_ok {me name : String} :
    b.ownName me name = .ok b' ↔ b.isOpen me = true ∧
      (b.names.get? name = none ∧ b' = { b with names := b.names.insert name me } ∨
        b.names.get? name = some me ∧ b' = b) := by
  unfold ownName
  rw [bind_eq_ok]
  constructor
  · rintro ⟨u, hopen, h⟩
    refine ⟨checkOpen_eq_ok.mp hopen, ?_⟩
    split at h
    · rename_i hfree
      cases h
      exact Or.inl ⟨hfree, rfl⟩
    · rename_i owner hown
      split at h
      · rename_i hme
        cases h
        exact Or.inr ⟨hme ▸ hown, rfl⟩
      · cases h
  · rintro ⟨hopen, ⟨hfree, rfl⟩ | ⟨hown, rfl⟩⟩
    · exact ⟨(), checkOpen_eq_ok.mpr hopen, by simp only [hfree]; rfl⟩
    · exact ⟨(), checkOpen_eq_ok.mpr hopen, by simp only [hown, if_pos]; rfl⟩

/-- Only an open connection exports. -/
theorem open_of_register {me path interface : String} {handler : η} {id : Nat}
    (h : b.register me path interface handler = .ok (b', id)) : b.isOpen me = true := by
  unfold register at h
  obtain ⟨u, hopen, -⟩ := bind_eq_ok.1 h
  exact checkOpen_eq_ok.mp hopen

/-- A broadcast changes the queues of a bus and nothing else. -/
theorem foldl_enqueue_eq (m : SignalMessage) (l : List (Subscription σ)) (b : Bus η σ) :
    l.foldl (enqueue m) b = { b with connections := (l.foldl (enqueue m) b).connections } := by
  induction l generalizing b with
  | nil => rfl
  | cons s l ih =>
    rw [List.foldl_cons, ih (enqueue m b s)]
    rfl

theorem isOpen_foldl_enqueue (m : SignalMessage) (l : List (Subscription σ)) (b : Bus η σ)
    (c : String) : (l.foldl (enqueue m) b).isOpen c = b.isOpen c :=
  foldl_same (fun b => b.isOpen c) (fun b s => isOpen_enqueue m s b c) l b

theorem connectionNames_foldl_enqueue (m : SignalMessage) (l : List (Subscription σ))
    (b : Bus η σ) : (l.foldl (enqueue m) b).connectionNames = b.connectionNames :=
  foldl_same connectionNames (fun b s => connectionNames_enqueue m s b) l b

/-! ### What an operation has left behind -/

section Apply

variable (b)

/-- Either the name is the connection's now, or nothing has changed. -/
theorem apply_ownName (me name : String) :
    b.isOpen me = true ∧ b.apply (.ownName me name) = { b with names := b.names.insert name me } ∨
      b.apply (.ownName me name) = b := by
  cases h : b.ownName me name with
  | ok b' =>
    have hb' : b.apply (.ownName me name) = b' := by simp only [apply, h]; rfl
    obtain ⟨hopen, ⟨-, heq⟩ | ⟨-, heq⟩⟩ := ownName_eq_ok.mp h
    · exact Or.inl ⟨hopen, hb'.trans heq⟩
    · exact Or.inr (hb'.trans heq)
  | error e => exact Or.inr (by simp only [apply, h]; rfl)

/-- Either the name is free now, or nothing has changed. -/
theorem apply_releaseName (me name : String) :
    b.apply (.releaseName me name) = { b with names := b.names.erase name } ∨
      b.apply (.releaseName me name) = b := by
  simp only [apply, releaseName]
  split
  · exact Or.inl rfl
  · exact Or.inr rfl

/-- Either the object is there now, or nothing has changed. -/
theorem apply_register (me path interface : String) (handler : η) :
    b.isOpen me = true ∧ b.apply (.register me path interface handler) = { b with
        nextId := b.nextId + 1
        objects := b.objects.insert ⟨me, path, interface⟩ ⟨b.nextId, handler⟩ } ∨
      b.apply (.register me path interface handler) = b := by
  cases h : b.register me path interface handler with
  | ok r =>
    obtain ⟨b', id⟩ := r
    refine Or.inl ⟨open_of_register h, ?_⟩
    simp only [apply, h]
    exact (register_eq_ok h).2
  | error e => exact Or.inr (by simp only [apply, h]; rfl)

/-- Signals may have come into queues; nothing else has changed. -/
theorem apply_emit (me : String) (m : SignalMessage) :
    b.apply (.emit me m) = { b with connections := (b.apply (.emit me m)).connections } ∧
      (b.apply (.emit me m)).connectionNames = b.connectionNames ∧
      ∀ c, (b.apply (.emit me m)).isOpen c = b.isOpen c := by
  cases h : b.emit me m with
  | ok b' =>
    have hb' : b.apply (.emit me m) = b' := by simp only [apply, h]; rfl
    obtain ⟨-, rfl⟩ := emit_eq_ok.mp h
    rw [hb']
    exact ⟨foldl_enqueue_eq _ _ b, connectionNames_foldl_enqueue _ _ b,
      isOpen_foldl_enqueue _ _ b⟩
  | error e =>
    have hb' : b.apply (.emit me m) = b := by simp only [apply, h]; rfl
    rw [hb']
    exact ⟨rfl, rfl, fun _ => rfl⟩

end Apply

/-! ## 3. Open connections -/

theorem isOpen_connect (b : Bus η σ) (c : String) :
    b.connect.1.isOpen c = true ↔ b.isOpen c = true ∨ b.connect.2 = c := by
  simp [isOpen, connect]

/-- A connection that closes is open no more; the others are what they were. -/
theorem isOpen_close (b : Bus η σ) (me c : String) :
    (b.close me).isOpen c = true ↔ b.isOpen c = true ∧ me ≠ c := by
  unfold close
  split
  · simp only [isOpen, List.any_map, List.any_eq_true, Function.comp_apply, Bool.and_eq_true,
      decide_eq_true_eq]
    constructor
    · rintro ⟨x, hx, hopen, hname⟩
      by_cases hme : x.name = me
      · simp [hme] at hopen
      · simp only [hme, if_false] at hopen hname
        exact ⟨⟨x, hx, hopen, hname⟩, fun h => hme (hname.trans h.symm)⟩
    · rintro ⟨⟨x, hx, hopen, hname⟩, hne⟩
      have hme : x.name ≠ me := fun h => hne (h.symm.trans hname)
      refine ⟨x, hx, ?_⟩
      rw [if_neg hme]
      exact ⟨hopen, hname⟩
  · rename_i hclosed
    refine ⟨fun h => ⟨h, ?_⟩, And.left⟩
    rintro rfl
    exact hclosed h

theorem isOpen_drain (b : Bus η σ) (d c : String) : (b.drain d).1.isOpen c = b.isOpen c := by
  simp only [isOpen, drain, List.any_map]
  refine congrArg (List.any b.connections) (funext fun x => ?_)
  simp only [Function.comp_apply]
  split <;> rfl

/-- **What opens and closes connections.** -/
theorem isOpen_apply (b : Bus η σ) (op : Operation η σ) (c : String) :
    (b.apply op).isOpen c = true ↔
      b.isOpen c = true ∧ op ≠ .close c ∨ op = .connect ∧ b.connect.2 = c := by
  cases op with
  | connect => simpa [apply] using isOpen_connect b c
  | close me => simpa [apply] using isOpen_close b me c
  | ownName me name =>
    rcases b.apply_ownName me name with ⟨-, h⟩ | h <;> rw [h] <;> simp [isOpen]
  | releaseName me name =>
    rcases b.apply_releaseName me name with h | h <;> rw [h] <;> simp [isOpen]
  | register me path interface handler =>
    rcases b.apply_register me path interface handler with ⟨-, h⟩ | h <;> rw [h] <;> simp [isOpen]
  | unregister id => simp [apply, unregister, isOpen]
  | subscribe me rule sink => simp [apply, subscribe, isOpen]
  | unsubscribe id => simp [apply, unsubscribe, isOpen]
  | emit me m =>
    rw [(b.apply_emit me m).2.2 c]
    simp
  | drain d => simp [apply, isOpen_drain]

/-- The connection has been opened, and it has not been closed since. -/
def OpenSince (callTimeout : Nat) (ops : List (Operation η σ)) (c : String) : Prop :=
  ∃ before after, ops = before ++ .connect :: after ∧
    ((empty callTimeout : Bus η σ).run before).connect.2 = c ∧ .close c ∉ after

theorem openSince_append {callTimeout : Nat} {ops : List (Operation η σ)} {op : Operation η σ}
    {c : String} : OpenSince callTimeout (ops ++ [op]) c ↔
      OpenSince callTimeout ops c ∧ op ≠ .close c ∨
        op = .connect ∧ ((empty callTimeout : Bus η σ).run ops).connect.2 = c := by
  constructor
  · rintro ⟨before, after, hops, hname, hclose⟩
    rcases List.eq_nil_or_concat after with rfl | ⟨after, last, rfl⟩
    · obtain ⟨rfl, hop⟩ := List.append_inj' hops rfl
      exact Or.inr ⟨List.singleton_inj.mp hop, hname⟩
    · rw [List.concat_eq_append, ← List.cons_append, ← List.append_assoc] at hops
      obtain ⟨rfl, hop⟩ := List.append_inj' hops rfl
      rw [List.concat_eq_append, List.mem_append, not_or] at hclose
      refine Or.inl ⟨⟨before, after, rfl, hname, hclose.1⟩, ?_⟩
      rintro rfl
      exact hclose.2 (List.singleton_inj.mp hop ▸ List.mem_singleton_self _)
  · rintro (⟨⟨before, after, rfl, hname, hclose⟩, hop⟩ | ⟨rfl, hname⟩)
    · refine ⟨before, after ++ [op], by simp, hname, ?_⟩
      rw [List.mem_append, not_or]
      exact ⟨hclose, fun h => hop (List.mem_singleton.mp h).symm⟩
    · exact ⟨ops, [], rfl, hname, by simp⟩

/-- **A connection is open if it was opened and has not been closed since.** -/
theorem isOpen_run (callTimeout : Nat) (ops : List (Operation η σ)) (c : String) :
    ((empty callTimeout : Bus η σ).run ops).isOpen c = true ↔ OpenSince callTimeout ops c := by
  induction ops using List.reverseRecOn with
  | nil => simp [isOpen, empty, OpenSince]
  | append_singleton ops op ih =>
    rw [run_append, run_cons, run_nil, isOpen_apply, openSince_append, ih]

/-! ## 4. Owners -/

/-- Whoever owns a name or has exported an object is open. -/
structure Owned (b : Bus η σ) : Prop where
  namesDistinct : b.names.Distinct
  objectsDistinct : b.objects.Distinct
  names : ∀ owner ∈ b.names.values, b.isOpen owner = true
  objects : ∀ key ∈ b.objects.keys, b.isOpen key.owner = true

theorem owned_empty (callTimeout : Nat) : (empty callTimeout : Bus η σ).Owned where
  namesDistinct := Table.distinct_empty
  objectsDistinct := Table.distinct_empty
  names := by simp [empty, Table.values, Table.empty]
  objects := by simp [empty, Table.keys, Table.empty]

/-- It is enough that no owner comes or closes. -/
theorem Owned.of_frame (h : b.Owned) (hnames : b'.names = b.names)
    (hobjects : b'.objects = b.objects)
    (hopen : ∀ c, b.isOpen c = true → b'.isOpen c = true) : b'.Owned where
  namesDistinct := by rw [hnames]; exact h.namesDistinct
  objectsDistinct := by rw [hobjects]; exact h.objectsDistinct
  names := by
    intro owner howner
    rw [hnames] at howner
    exact hopen owner (h.names owner howner)
  objects := by
    intro key hkey
    rw [hobjects] at hkey
    exact hopen key.owner (h.objects key hkey)

/-- An open connection takes a name. -/
theorem Owned.insertName (h : b.Owned) {me : String} (hopen : b.isOpen me = true) (name : String) :
    Owned { b with names := b.names.insert name me } where
  namesDistinct := h.namesDistinct.insert name me
  objectsDistinct := h.objectsDistinct
  names := by
    intro owner howner
    rcases Table.mem_values_insert howner with rfl | howner
    · exact hopen
    · exact h.names owner howner
  objects := h.objects

/-- Names are given up. -/
theorem Owned.filterNames (h : b.Owned) (p : String → String → Bool) :
    Owned { b with names := b.names.filter p } where
  namesDistinct := h.namesDistinct.filter p
  objectsDistinct := h.objectsDistinct
  names := fun owner howner => h.names owner (Table.mem_values_filter howner)
  objects := h.objects

/-- An open connection exports an object. -/
theorem Owned.insertObject (h : b.Owned) {key : ObjectKey} (hopen : b.isOpen key.owner = true)
    (nextId : Nat) (r : Registration η) :
    Owned { b with nextId, objects := b.objects.insert key r } where
  namesDistinct := h.namesDistinct
  objectsDistinct := h.objectsDistinct.insert key r
  names := h.names
  objects := by
    intro k hk
    obtain ⟨x, hx⟩ := Table.mem_keys_iff.mp hk
    rw [Table.get?_insert] at hx
    split at hx
    · rename_i heq
      exact heq ▸ hopen
    · exact h.objects k (Table.mem_keys_iff.mpr ⟨x, hx⟩)

/-- Objects are taken back. -/
theorem Owned.filterObjects (h : b.Owned) (p : ObjectKey → Registration η → Bool) :
    Owned { b with objects := b.objects.filter p } where
  namesDistinct := h.namesDistinct
  objectsDistinct := h.objectsDistinct.filter p
  names := h.names
  objects := fun key hkey => h.objects key (Table.mem_keys_filter hkey)

/-- A connection that closes owns nothing any more. -/
theorem Owned.close (h : b.Owned) (me : String) : (b.close me).Owned := by
  have hstill : ∀ c, b.isOpen c = true → me ≠ c → (b.close me).isOpen c = true := fun c hc hne =>
    (isOpen_close b me c).mpr ⟨hc, hne⟩
  unfold Bus.close at hstill ⊢
  split
  · rename_i hopen
    rw [if_pos hopen] at hstill
    refine ⟨h.namesDistinct.filter _, h.objectsDistinct.filter _, fun owner howner => ?_,
      fun key hkey => ?_⟩
    · obtain ⟨e, he, rfl⟩ := List.mem_map.mp howner
      obtain ⟨he, hne⟩ := List.mem_filter.mp he
      exact hstill e.2 (h.names e.2 (List.mem_map.mpr ⟨e, he, rfl⟩))
        (Ne.symm (of_decide_eq_true hne))
    · obtain ⟨e, he, rfl⟩ := List.mem_map.mp hkey
      obtain ⟨he, hne⟩ := List.mem_filter.mp he
      exact hstill e.1.owner (h.objects e.1 (List.mem_map.mpr ⟨e, he, rfl⟩))
        (Ne.symm (of_decide_eq_true hne))
  · exact h

theorem Owned.apply (h : b.Owned) (op : Operation η σ) : (b.apply op).Owned := by
  cases op with
  | connect =>
    exact h.of_frame rfl rfl fun c hc => (isOpen_connect b c).mpr (Or.inl hc)
  | close me => exact h.close me
  | ownName me name =>
    rcases b.apply_ownName me name with ⟨hopen, heq⟩ | heq <;> rw [heq]
    · exact h.insertName hopen name
    · exact h
  | releaseName me name =>
    rcases b.apply_releaseName me name with heq | heq <;> rw [heq]
    · exact h.filterNames _
    · exact h
  | register me path interface handler =>
    rcases b.apply_register me path interface handler with ⟨hopen, heq⟩ | heq <;> rw [heq]
    · exact h.insertObject hopen _ _
    · exact h
  | unregister id => exact h.filterObjects _
  | subscribe me rule sink => exact h.of_frame rfl rfl fun _ hc => hc
  | unsubscribe id => exact h.of_frame rfl rfl fun _ hc => hc
  | emit me m =>
    obtain ⟨heq, -, hopen⟩ := b.apply_emit me m
    exact h.of_frame (by rw [heq]) (by rw [heq]) fun c hc => (hopen c).trans hc
  | drain d => exact h.of_frame rfl rfl fun c hc => (isOpen_drain b d c).trans hc

theorem owned_run (callTimeout : Nat) (ops : List (Operation η σ)) :
    ((empty callTimeout : Bus η σ).run ops).Owned :=
  run_keeps (P := Owned) (fun _ op h => h.apply op) (owned_empty callTimeout) ops

/-! ## 5. Numbers and names that are given once -/

/-- Buses age by operations. -/
theorem ages_apply (b : Bus η σ) (op : Operation η σ) : b.Ages (b.apply op) := by
  cases op with
  | connect => exact ages_connect b
  | close me => exact (still_close b me).toAges
  | ownName me name =>
    rcases b.apply_ownName me name with ⟨-, heq⟩ | heq <;> rw [heq]
    · exact .of_frame rfl rfl (Nat.le_refl _) (List.Sublist.refl _)
    · exact .refl b
  | releaseName me name => exact (still_releaseName b me name).toAges
  | register me path interface handler =>
    rcases b.apply_register me path interface handler with ⟨-, heq⟩ | heq <;> rw [heq]
    · exact .of_frame rfl rfl (Nat.le_succ _) (List.Sublist.refl _)
    · exact .refl b
  | unregister id => exact (still_unregister b id).toAges
  | subscribe me rule sink => exact (still_subscribe b me rule sink).toAges
  | unsubscribe id => exact (still_unsubscribe b id).toAges
  | emit me m =>
    obtain ⟨heq, hnames, -⟩ := b.apply_emit me m
    have hid : (b.apply (.emit me m)).nextId = b.nextId := by rw [heq]
    have hsubscriptions : (b.apply (.emit me m)).subscriptions = b.subscriptions := by rw [heq]
    exact .of_frame hnames (by rw [heq]) (Nat.le_of_eq hid.symm)
      (hsubscriptions ▸ List.Sublist.refl _)
  | drain d => exact ages_drain b d

theorem orderly_apply (h : b.Orderly) (op : Operation η σ) : (b.apply op).Orderly :=
  (ages_apply b op).orderly h

theorem ages_run (ops : List (Operation η σ)) (b : Bus η σ) : b.Ages (b.run ops) := by
  induction ops generalizing b with
  | nil => exact .refl b
  | cons op ops ih => exact (ages_apply b op).trans (ih _)

theorem orderly_run (callTimeout : Nat) (ops : List (Operation η σ)) :
    ((empty callTimeout : Bus η σ).run ops).Orderly :=
  run_keeps (P := Orderly) (fun _ op h => orderly_apply h op) (orderly_empty callTimeout) ops

theorem mem_connectionNames_of_isOpen {c : String} (h : b.isOpen c = true) :
    c ∈ b.connectionNames := by
  obtain ⟨x, hx, hopen⟩ := List.any_eq_true.mp h
  rw [Bool.and_eq_true, decide_eq_true_eq] at hopen
  exact List.mem_map.mpr ⟨x, hx, hopen.2⟩

/-- A connection keeps its name when it is closed. -/
theorem connectionNames_apply {op : Operation η σ} (hop : op ≠ .connect) :
    (b.apply op).connectionNames = b.connectionNames := by
  cases op with
  | connect => exact absurd rfl hop
  | close me => exact (still_close b me).names
  | ownName me name =>
    rcases b.apply_ownName me name with ⟨-, heq⟩ | heq <;> rw [heq]
    rfl
  | releaseName me name => exact (still_releaseName b me name).names
  | register me path interface handler =>
    rcases b.apply_register me path interface handler with ⟨-, heq⟩ | heq <;> rw [heq]
    rfl
  | unregister id => rfl
  | subscribe me rule sink => rfl
  | unsubscribe id => rfl
  | emit me m => exact (b.apply_emit me m).2.1
  | drain d => exact connectionNames_drain b d

theorem mem_connectionNames_run {c : String} (h : c ∈ b.connectionNames)
    (ops : List (Operation η σ)) : c ∈ (b.run ops).connectionNames := by
  refine run_keeps (P := fun b => c ∈ b.connectionNames) (fun b op h => ?_) h ops
  by_cases hop : op = .connect
  · rw [hop, apply, connectionNames_connect]
    exact List.mem_append_left _ h
  · rw [connectionNames_apply hop]
    exact h

/-- In a bus in order, the next connection gets a name that was never given. -/
theorem Orderly.connect_new (h : b.Orderly) : b.connect.2 ∉ b.connectionNames := by
  have hnodup := ((ages_connect b).orderly h).namesDistinct
  rw [connectionNames_connect, List.nodup_append] at hnodup
  exact fun hmem => hnodup.2.2 _ hmem _ (List.mem_singleton_self _) rfl

/-! ## 6. Subscriptions -/

/-- The connection has been open and is closed for good. -/
def Closed (b : Bus η σ) (c : String) : Prop := c ∈ b.connectionNames ∧ b.isOpen c = false

/-- What is closed stays closed. -/
theorem Closed.apply (ho : b.Orderly) {c : String} (h : b.Closed c) (op : Operation η σ) :
    (b.apply op).Closed c := by
  obtain ⟨hname, hclosed⟩ := h
  refine ⟨mem_connectionNames_run hname [op], ?_⟩
  rw [← Bool.not_eq_true, isOpen_apply]
  rintro (⟨hopen, -⟩ | ⟨-, hnew⟩)
  · rw [hopen] at hclosed
    cases hclosed
  · exact ho.connect_new (hnew ▸ hname)

theorem closed_close {me : String} (h : b.isOpen me = true) : (b.close me).Closed me := by
  refine ⟨?_, ?_⟩
  · rw [(still_close b me).names]
    exact mem_connectionNames_of_isOpen h
  · rw [← Bool.not_eq_true, isOpen_close]
    exact fun hopen => hopen.2 rfl

/-- A connection that closes loses its subscriptions, and no other one does. -/
theorem mem_subscriptions_close {me : String} {s : Subscription σ} (h : b.isOpen me = true) :
    s ∈ (b.close me).subscriptions ↔ s ∈ b.subscriptions ∧ s.owner ≠ me := by
  rw [close, if_pos h]
  simp

/-- Whether the operation leaves the making of subscriptions to others. -/
def Operation.isPlain : Operation η σ → Bool
  | .subscribe .. | .unsubscribe .. => false
  | _ => true

/-- Subscriptions go with their connections only. -/
structure Trims (b b' : Bus η σ) : Prop where
  older : ∀ s ∈ b'.subscriptions, s ∈ b.subscriptions
  gone : ∀ s ∈ b.subscriptions, s ∉ b'.subscriptions → b'.Closed s.owner
  stays : ∀ s ∈ b'.subscriptions, b.isOpen s.owner = true → b'.isOpen s.owner = true
  closed : ∀ {c}, b.Closed c → b'.Closed c

theorem Trims.refl (b : Bus η σ) : b.Trims b where
  older := fun _ hs => hs
  gone := fun _ hs hnot => absurd hs hnot
  stays := fun _ _ => id
  closed := id

theorem Trims.trans (h : b.Trims b') (h' : b'.Trims b'') : b.Trims b'' where
  older := fun s hs => h.older s (h'.older s hs)
  gone := by
    intro s hs hnot
    by_cases hmem : s ∈ b'.subscriptions
    · exact h'.gone s hmem hnot
    · exact h'.closed (h.gone s hs hmem)
  stays := fun s hs hopen => h'.stays s hs (h.stays s (h'.older s hs) hopen)
  closed := fun hc => h'.closed (h.closed hc)

/-- What a plain operation does to subscriptions. -/
theorem trims_apply (ho : b.Orderly) {op : Operation η σ} (hop : op.isPlain = true) :
    b.Trims (b.apply op) := by
  have hstays : ∀ s ∈ (b.apply op).subscriptions, op ≠ .close s.owner →
      b.isOpen s.owner = true → (b.apply op).isOpen s.owner = true := fun s _ hne hopen =>
    (isOpen_apply b op s.owner).mpr (Or.inl ⟨hopen, hne⟩)
  have hsame : (b.apply op).subscriptions = b.subscriptions →
      (∀ s ∈ b.subscriptions, op = .close s.owner → b.isOpen s.owner = false) →
      b.Trims (b.apply op) := fun heq hclose =>
    { older := fun s hs => heq ▸ hs
      gone := fun s hs hnot => absurd (heq ▸ hs) hnot
      stays := by
        intro s hs hopen
        refine hstays s hs (fun hop => ?_) hopen
        rw [hclose s (heq ▸ hs) hop] at hopen
        cases hopen
      closed := fun hc => hc.apply ho op }
  have hnone : (∀ me, op ≠ .close me) → (b.apply op).subscriptions = b.subscriptions →
      b.Trims (b.apply op) := fun hclose heq =>
    hsame heq fun s _ hop => absurd hop (hclose s.owner)
  cases op with
  | connect => exact hnone (by simp) rfl
  | close me =>
    by_cases hopen : b.isOpen me = true
    · refine ⟨fun s hs => ((mem_subscriptions_close hopen).mp hs).1, fun s hs hnot => ?_,
        fun s hs => hstays s hs ?_, fun hc => hc.apply ho _⟩
      · have howner : s.owner = me := by
          by_contra hne
          exact hnot ((mem_subscriptions_close hopen).mpr ⟨hs, hne⟩)
        rw [howner]
        exact closed_close hopen
      · have hne := ((mem_subscriptions_close hopen).mp hs).2
        simpa using Ne.symm hne
    · refine hsame (by rw [apply, close, if_neg hopen]) fun s _ hop => ?_
      simp only [Operation.close.injEq] at hop
      rw [← hop]
      simpa using hopen
  | ownName me name =>
    refine hnone (by simp) ?_
    rcases b.apply_ownName me name with ⟨-, heq⟩ | heq <;> rw [heq]
  | releaseName me name =>
    refine hnone (by simp) ?_
    rcases b.apply_releaseName me name with heq | heq <;> rw [heq]
  | register me path interface handler =>
    refine hnone (by simp) ?_
    rcases b.apply_register me path interface handler with ⟨-, heq⟩ | heq <;> rw [heq]
  | unregister id => exact hnone (by simp) rfl
  | subscribe me rule sink => cases hop
  | unsubscribe id => cases hop
  | emit me m => exact hnone (by simp) (by rw [(b.apply_emit me m).1])
  | drain d => exact hnone (by simp) rfl

theorem trims_run (ops : List (Operation η σ)) {b : Bus η σ} (ho : b.Orderly)
    (hops : ∀ op ∈ ops, op.isPlain = true) : b.Trims (b.run ops) := by
  induction ops generalizing b with
  | nil => exact .refl b
  | cons op ops ih =>
    have hop := trims_apply ho (hops op List.mem_cons_self)
    exact hop.trans (ih (orderly_apply ho op) fun op hmem => hops op (List.mem_cons_of_mem _ hmem))

end MessageBus.Bus

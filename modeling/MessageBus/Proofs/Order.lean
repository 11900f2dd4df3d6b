/-
# Numbers that are given once

Tasks, objects, proxies and invocations are known by numbers.  A world is ORDERLY when no number is
used twice and none is used before it is given: the next task number is above all that are in use,
the tables of the rest are filled below their sizes, the queue names tasks that have been there and
each at most once.  Some references have to hold, too: what is registered on a bus is an object, so
is what a call is about to be handed to, the call has its invocation, and a proxy calls the
interface that it was made for.

This module has the order of a world and what the primitive changes do to it.  That every move keeps
it is `World.orderly_act` (`MessageBus.Proofs.Steps`).
-/
import MessageBus.Proofs.Moves
import MessageBus.Proofs.Tables

namespace MessageBus.World

/-- What the task refers to is there: the object that it is about to call, the invocation, for just
this member, and the invocation for whose reply it waits. -/
def Knows (w : World) : Task → Prop
  | .handle object i member _ =>
    (w.objects.get? object).isSome ∧ ∃ inv, w.invocations.get? i = some inv ∧ inv.member = member
  | .request _ (.awaitReply i _) | .watch i => ∃ inv, w.invocations.get? i = some inv
  | _ => True

/-- Numbers are given once, and references hold. -/
structure Orderly (w : World) : Prop where
  tasksBelow : ∀ t ∈ w.tasks.keys, t < w.nextTask
  tasksDistinct : w.tasks.Distinct
  readyBelow : ∀ t ∈ w.ready, t < w.nextTask
  readyDistinct : w.ready.Nodup
  objectsBelow : w.objects.Below
  proxiesBelow : w.proxies.Below
  invocationsBelow : w.invocations.Below
  keptBelow : w.kept.Below
  /-- What is registered on a bus is an object. -/
  registered : ∀ b, ∀ r ∈ (w.bus b).objects.values, (w.objects.get? r.handler).isSome
  known : ∀ {t x}, w.tasks.get? t = some x → w.Knows x
  /-- A proxy calls its own interface. -/
  aimed : ∀ {id p}, w.proxies.get? id = some p → p.target.interface = p.interface.name

theorem orderly_empty : empty.Orderly where
  tasksBelow := by simp [empty, Table.keys, Table.empty]
  tasksDistinct := Table.distinct_empty
  readyBelow := by simp [empty]
  readyDistinct := by simp [empty]
  objectsBelow := Table.below_empty
  proxiesBelow := Table.below_empty
  invocationsBelow := Table.below_empty
  keptBelow := Table.below_empty
  registered := by
    intro b r hr
    have hr : r ∈ ([] : List (Registration Nat)) := hr
    cases hr
  known := by
    intro t x h
    cases h
  aimed := by
    intro id p h
    cases h

section Order

variable {w w' : World}

/-- A task that is there has a number that has been given. -/
theorem Orderly.task_lt (h : w.Orderly) {t : Nat} {x : Task} (ht : w.tasks.get? t = some x) :
    t < w.nextTask := h.tasksBelow t (Table.mem_keys_iff.mpr ⟨x, ht⟩)

/-- The next task number is free. -/
theorem Orderly.task_free (h : w.Orderly) {t : Nat} (ht : w.nextTask ≤ t) :
    w.tasks.get? t = none := by
  rw [Table.get?_eq_none_iff]
  intro hk
  exact absurd (h.tasksBelow t hk) (Nat.not_lt.mpr ht)

/-- What is there stays there when objects and invocations do. -/
theorem Knows.mono {x : Task} (h : w.Knows x)
    (hobjects : ∀ {o}, (w.objects.get? o).isSome → (w'.objects.get? o).isSome)
    (hinvocations : ∀ {i inv}, w.invocations.get? i = some inv →
      ∃ inv', w'.invocations.get? i = some inv' ∧ inv'.member = inv.member) : w'.Knows x := by
  cases x with
  | handle object i member body =>
    obtain ⟨ho, inv, hi, hm⟩ := h
    obtain ⟨inv', hi', hm'⟩ := hinvocations hi
    exact ⟨hobjects ho, inv', hi', hm'.trans hm⟩
  | request r p =>
    cases p with
    | awaitReply i d =>
      obtain ⟨inv, hi⟩ := h
      obtain ⟨inv', hi', -⟩ := hinvocations hi
      exact ⟨inv', hi'⟩
    | _ => trivial
  | watch i =>
    obtain ⟨inv, hi⟩ := h
    obtain ⟨inv', hi', -⟩ := hinvocations hi
    exact ⟨inv', hi'⟩
  | _ => trivial

/-- The order of a world depends on a few of its fields. -/
theorem Orderly.congr (h : w.Orderly) (htasks : w'.tasks = w.tasks)
    (hnext : w'.nextTask = w.nextTask) (hready : w'.ready = w.ready)
    (hobjects : w'.objects = w.objects) (hproxies : w'.proxies = w.proxies)
    (hinvocations : w'.invocations = w.invocations) (hkept : w'.kept = w.kept)
    (hbuses : w'.buses = w.buses) : w'.Orderly where
  tasksBelow := by rw [htasks, hnext]; exact h.tasksBelow
  tasksDistinct := by rw [htasks]; exact h.tasksDistinct
  readyBelow := by rw [hready, hnext]; exact h.readyBelow
  readyDistinct := by rw [hready]; exact h.readyDistinct
  objectsBelow := by rw [hobjects]; exact h.objectsBelow
  proxiesBelow := by rw [hproxies]; exact h.proxiesBelow
  invocationsBelow := by rw [hinvocations]; exact h.invocationsBelow
  keptBelow := by rw [hkept]; exact h.keptBelow
  registered := by
    have hb : ∀ b, w'.bus b = w.bus b := fun b => by rw [bus, bus, hbuses]
    simpa only [hb, hobjects] using h.registered
  known := by
    intro t x ht
    rw [htasks] at ht
    refine (h.known ht).mono ?_ ?_
    · rw [hobjects]
      exact id
    · rw [hinvocations]
      exact fun hi => ⟨_, hi, rfl⟩
  aimed := by rw [hproxies]; exact h.aimed

/-! ## 1. Buses -/

theorem bus_setBus (w : World) (b c : Nat) (x : Bus Nat Sink) :
    (w.setBus b x).bus c = if b = c then x else w.bus c := by
  simp only [setBus, bus, Table.get?_insert]
  split <;> rfl

/-- A bus may be changed as long as what is registered on it are objects. -/
theorem Orderly.setBus (h : w.Orderly) {b : Nat} {x : Bus Nat Sink}
    (hx : ∀ r ∈ x.objects.values, (w.objects.get? r.handler).isSome) : (w.setBus b x).Orderly where
  tasksBelow := h.tasksBelow
  tasksDistinct := h.tasksDistinct
  readyBelow := h.readyBelow
  readyDistinct := h.readyDistinct
  objectsBelow := h.objectsBelow
  proxiesBelow := h.proxiesBelow
  invocationsBelow := h.invocationsBelow
  keptBelow := h.keptBelow
  registered := by
    intro c r hr
    rw [bus_setBus] at hr
    split at hr
    · exact hx r hr
    · exact h.registered c r hr
  known := h.known
  aimed := h.aimed

/-! ## 2. Objects and proxies -/

/-- A change to the table of objects that loses none. -/
theorem Orderly.insertObject (h : w.Orderly) {id : Nat} (hid : id ≤ w.objects.size) (o : Object) :
    ({ w with objects := w.objects.insert id o } : World).Orderly where
  tasksBelow := h.tasksBelow
  tasksDistinct := h.tasksDistinct
  readyBelow := h.readyBelow
  readyDistinct := h.readyDistinct
  objectsBelow := h.objectsBelow.insert hid o
  proxiesBelow := h.proxiesBelow
  invocationsBelow := h.invocationsBelow
  keptBelow := h.keptBelow
  registered := by
    intro b r hr
    rw [Table.get?_insert]
    split
    · rfl
    · exact h.registered b r hr
  known := by
    intro t x ht
    refine (h.known ht).mono ?_ (fun hi => ⟨_, hi, rfl⟩)
    intro i hi
    rw [Table.get?_insert]
    split
    · rfl
    · exact hi
  aimed := h.aimed

/-- A change to the table of proxies that loses none. -/
theorem Orderly.insertProxy (h : w.Orderly) {id : Nat} (hid : id ≤ w.proxies.size) {p : Proxy}
    (hp : p.target.interface = p.interface.name) :
    ({ w with proxies := w.proxies.insert id p } : World).Orderly :=
  { h with
    proxiesBelow := h.proxiesBelow.insert hid p
    aimed := by
      intro i q hq
      rw [Table.get?_insert] at hq
      split at hq
      · cases hq
        exact hp
      · exact h.aimed hq }

/-- A change to the table of invocations that loses none, and no member. -/
theorem Orderly.insertInvocation (h : w.Orderly) {id : Nat} (hid : id ≤ w.invocations.size)
    {i : Invocation} (hi : ∀ {j}, w.invocations.get? id = some j → i.member = j.member) :
    ({ w with invocations := w.invocations.insert id i } : World).Orderly :=
  { h with
    invocationsBelow := h.invocationsBelow.insert hid i
    known := by
      intro t x ht
      refine (h.known ht).mono (fun ho => ho) ?_
      intro k j hj
      rw [Table.get?_insert]
      split
      · rename_i heq
        subst heq
        exact ⟨i, rfl, hi hj⟩
      · exact ⟨j, hj, rfl⟩ }

/-- A change to the slots that loses none. -/
theorem Orderly.insertKept (h : w.Orderly) {slot : Nat} (hs : slot ≤ w.kept.size) (k : Kept) :
    ({ w with kept := w.kept.insert slot k } : World).Orderly :=
  { h with keptBelow := h.keptBelow.insert hs k }

/-! ## 3. Tasks -/

/-- Changing the progress of a request, or putting any task in the place of one that is there. -/
theorem Orderly.replaceTask (h : w.Orderly) {t : Nat} {x y : Task} (ht : w.tasks.get? t = some x)
    (hy : w.Knows y) :
    ({ w with tasks := w.tasks.insert t y } : World).Orderly :=
  { h with
    tasksBelow := by
      intro s hs
      rw [Table.keys_insert, if_pos (Table.mem_keys_iff.mpr ⟨x, ht⟩)] at hs
      exact h.tasksBelow s hs
    tasksDistinct := h.tasksDistinct.insert t y
    known := by
      intro s z hs
      rw [Table.get?_insert] at hs
      split at hs
      · cases hs
        exact hy
      · exact h.known hs }

theorem Orderly.endTask (h : w.Orderly) (t : Nat) : (w.endTask t).Orderly :=
  { h with
    tasksBelow := by
      intro s hs
      simp only [World.endTask, Table.keys_erase, List.mem_filter] at hs
      exact h.tasksBelow s hs.1
    tasksDistinct := h.tasksDistinct.erase t
    known := by
      intro s z hs
      simp only [World.endTask, Table.get?_erase] at hs
      split at hs
      · cases hs
      · exact h.known hs }

/-- A new task takes the next number. -/
theorem Orderly.addTask (h : w.Orderly) {x : Task} (hx : w.Knows x) : (w.addTask x).1.Orderly :=
  { h with
    tasksBelow := by
      intro s hs
      simp only [World.addTask, Table.keys_insert] at hs ⊢
      split at hs
      · exact Nat.lt_succ_of_lt (h.tasksBelow s hs)
      · rcases List.mem_append.mp hs with hs | hs
        · exact Nat.lt_succ_of_lt (h.tasksBelow s hs)
        · rw [List.mem_singleton.mp hs]
          exact Nat.lt_succ_self _
    tasksDistinct := h.tasksDistinct.insert _ x
    readyBelow := fun s hs => Nat.lt_succ_of_lt (h.readyBelow s hs)
    known := by
      intro s z hs
      simp only [World.addTask, Table.get?_insert] at hs
      split at hs
      · cases hs
        exact hx
      · exact h.known hs }

/-! ## 4. The queue -/

theorem Orderly.enqueue (h : w.Orderly) {t : Nat} (ht : t < w.nextTask) :
    (w.enqueue t).Orderly := by
  unfold World.enqueue
  split
  · exact h
  · rename_i hc
    have hn : t ∉ w.ready := by simpa using hc
    exact
      { h with
        readyBelow := by
          intro s hs
          rcases List.mem_append.mp hs with hs | hs
          · exact h.readyBelow s hs
          · rw [List.mem_singleton.mp hs]
            exact ht
        readyDistinct := by
          rw [List.nodup_append]
          refine ⟨h.readyDistinct, by simp, fun a ha b hb hab => hn ?_⟩
          rw [List.mem_singleton] at hb
          exact hb ▸ hab ▸ ha }

/-- Taking a task from the queue. -/
theorem Orderly.unready (h : w.Orderly) (t : Nat) :
    ({ w with ready := w.ready.erase t } : World).Orderly :=
  { h with
    readyBelow := fun s hs => h.readyBelow s (List.mem_of_mem_erase hs)
    readyDistinct := h.readyDistinct.erase t }

theorem Orderly.spawn (h : w.Orderly) {x : Task} (hx : w.Knows x) : (w.spawn x).Orderly :=
  (h.addTask hx).enqueue (Nat.lt_succ_self _)

end Order

end MessageBus.World

/-
# Which argument lists make a call

`prepare` goes by one of two conventions, and for each there is a theorem that says which lists it
accepts, what becomes of a list that it accepts, and which error a list gets that it does not
(`prepare_full_exact`, `prepare_introspected_exact`).  An error is always that of the first check
that does not hold: the count, then the trailers, then the declared arguments from the left, then
their packing.

The trailers are read from the right, each overwriting what those to its right have said.  So it is
the rightmost bad trailer that is refused, and the leftmost of its sort that counts
(`Trailers.readFull_eq_ok`, `Trailers.readFull_eq_error`); trailers of different sorts do not
interfere, and may change places (`summary_of_sameBySort`).

By the introspected convention a list of an asynchronous call is one of a synchronous call with a
handler behind it, and is read as such (`Trailers.read_async_eq_ok`,
`Trailers.read_async_eq_error`).  So there it is enough to know about the one trailer that a
synchronous call may have.
-/
import MessageBus.Arguments
import MessageBus.Proofs.Checks
import Mathlib.Data.List.Nodup
import Mathlib.Data.List.Perm.Basic

namespace MessageBus

/-! ## 1. Arguments by their sort -/

/-- What an argument is. -/
inductive ArgumentSort where
  | value
  | cancel
  | reply
  | finish
  deriving DecidableEq

namespace Argument

def sort : Argument → ArgumentSort
  | .value _ => .value
  | .cancel _ => .cancel
  | .reply _ => .reply
  | .finish _ => .finish

/-- The token of an argument that is one. -/
def token? : Argument → Option Token
  | .cancel token => some token
  | _ => none

/-- The handler of an argument that takes the values of the reply. -/
def reply? : Argument → Option String
  | .reply handler => some handler
  | _ => none

/-- The argument may trail by the full convention: it is a token, an integer that fits 32 bits
without a sign, or in an asynchronous call a reply handler. -/
def Trails (mode : CallMode) : Argument → Prop
  | .value v => ∃ n, v.asInt = some n ∧ IntKind.uint32.Holds n
  | .cancel _ => True
  | .reply _ => mode = .async
  | .finish _ => False

/-- An argument that serves as flags is an integer, and they are its bits. -/
theorem flags?_eq_some {a : Argument} {f : CallFlags} :
    a.flags? = some f ↔ ∃ v, a = .value v ∧ v.asInt = some (f.bits.toNat : Int) := by
  cases a with
  | value v =>
    obtain ⟨bits⟩ := f
    have hbits : bits.toNat < 2 ^ 32 := bits.toNat_lt
    simp only [flags?, Value.asIntOf, Option.map_eq_some_iff, CallFlags.mk.injEq,
      Option.bind_eq_some_iff, Option.dite_none_right_eq_some, value.injEq, exists_eq_left']
    constructor
    · rintro ⟨k, ⟨n, hn, h, hk⟩, rfl⟩
      cases hk
      rw [hn]
      simp [IntKind.Holds, IntKind.least, IntKind.greatest] at h ⊢
      omega
    · intro h
      refine ⟨_, ⟨_, h, ?_, rfl⟩, by simp⟩
      simp [IntKind.Holds, IntKind.least, IntKind.greatest]
      omega
  | _ => simp [flags?]

/-- A value trails just if it serves as flags. -/
theorem trails_value {mode : CallMode} {v : Value} :
    (value v).Trails mode ↔ ∃ f, (value v).flags? = some f := by
  simp only [Trails, flags?, Value.asIntOf, ← Option.isSome_iff_exists, Option.isSome_map,
    Option.isSome_bind]
  cases v.asInt <;> simp

end Argument

/-! ## 2. The trailers of the full convention -/

namespace Trailers

variable {m : Method} {mode : CallMode}

/-- What trailers say together: of each sort the leftmost counts. -/
def summary (args : List Argument) : Trailers where
  flags := args.findSome? Argument.flags?
  cancel := args.findSome? Argument.token?
  completion := (args.findSome? Argument.reply?).elim .log .reply

theorem summary_value {v : Value} {flags : CallFlags} (h : (Argument.value v).flags? = some flags)
    (rest : List Argument) :
    summary (.value v :: rest) = { summary rest with flags := some flags } := by
  simp only [summary, List.findSome?_cons, h]
  rfl

theorem summary_cancel (token : Token) (rest : List Argument) :
    summary (.cancel token :: rest) = { summary rest with cancel := some token } := rfl

theorem summary_reply (handler : String) (rest : List Argument) :
    summary (.reply handler :: rest) = { summary rest with completion := .reply handler } := rfl

/-- One trailer more, to the left. -/
theorem addFull_summary {a : Argument} {position : Nat} {rest : List Argument} {t : Trailers} :
    addFull m mode a position (summary rest) = .ok t ↔
      a.Trails mode ∧ summary (a :: rest) = t := by
  cases a with
  | value v =>
    rw [addFull, Argument.trails_value]
    cases hflags : (Argument.value v).flags? with
    | none => simp
    | some flags => simp [summary_value hflags]
  | cancel token => simp [addFull, Argument.Trails, summary_cancel]
  | reply handler => cases mode <;> simp [addFull, Argument.Trails, summary_reply]
  | finish handler => simp [addFull, Argument.Trails]

theorem addFull_eq_error {a : Argument} {position : Nat} {t : Trailers} {e : CallError} :
    addFull m mode a position t = .error e ↔
      ¬ a.Trails mode ∧ e = .argumentType m.name position a.describe := by
  cases a with
  | value v =>
    rw [addFull, Argument.trails_value]
    cases (Argument.value v).flags? <;> simp [refuse, eq_comm]
  | cancel token => simp [addFull, Argument.Trails]
  | reply handler => cases mode <;> simp [addFull, Argument.Trails, refuse, eq_comm]
  | finish handler => simp [addFull, Argument.Trails, refuse, eq_comm]

/-- **Trailers are read if each may trail**, and the leftmost of each sort counts. -/
theorem readFull_eq_ok {position : Nat} {args : List Argument} {t : Trailers} :
    readFull m mode position args = .ok t ↔
      (∀ a ∈ args, a.Trails mode) ∧ summary args = t := by
  induction args generalizing position t with
  | nil => simp [readFull, summary, Trailers.none]
  | cons a args ih =>
    rw [readFull, bind_eq_ok, List.forall_mem_cons]
    simp only [ih]
    constructor
    · rintro ⟨_, ⟨hargs, rfl⟩, h⟩
      obtain ⟨ha, rfl⟩ := addFull_summary.mp h
      exact ⟨⟨ha, hargs⟩, rfl⟩
    · rintro ⟨⟨ha, hargs⟩, rfl⟩
      exact ⟨_, ⟨hargs, rfl⟩, addFull_summary.mpr ⟨ha, rfl⟩⟩

/-- **The rightmost trailer that may not trail is refused.** -/
theorem readFull_eq_error {position : Nat} {args : List Argument} {e : CallError} :
    readFull m mode position args = .error e ↔ ∃ before a after, args = before ++ a :: after ∧
      ¬ a.Trails mode ∧ (∀ b ∈ after, b.Trails mode) ∧
      e = .argumentType m.name (position + before.length) a.describe := by
  induction args generalizing position with
  | nil => simp [readFull]
  | cons a args ih =>
    -- The rest is read first, so `a` is refused only if all that follow it may trail.
    rw [readFull, bind_eq_error]
    simp only [ih, readFull_eq_ok, addFull_eq_error]
    constructor
    · rintro (⟨before, b, after, rfl, hb, hafter, rfl⟩ | ⟨-, ⟨hargs, -⟩, ha, rfl⟩)
      · refine ⟨a :: before, b, after, rfl, hb, hafter, ?_⟩
        rw [List.length_cons, Nat.add_right_comm, Nat.add_assoc]
      · exact ⟨[], a, args, rfl, ha, hargs, rfl⟩
    · rintro ⟨before, b, after, h, hb, hafter, rfl⟩
      cases before with
      | nil =>
        cases h
        exact Or.inr ⟨_, ⟨hafter, rfl⟩, hb, rfl⟩
      | cons c before =>
        cases h
        refine Or.inl ⟨before, b, after, rfl, hb, hafter, ?_⟩
        rw [List.length_cons, Nat.add_right_comm, Nat.add_assoc]

/-- The same trailers up to their order, with those of one sort in the same order. -/
def SameBySort (us vs : List Argument) : Prop :=
  ∀ s, us.filter (·.sort = s) = vs.filter (·.sort = s)

/-- What is picked out of one sort of arguments does not depend on the others. -/
theorem findSome?_filter_sort {α : Type} {f : Argument → Option α} {s : ArgumentSort}
    (hf : ∀ a, a.sort ≠ s → f a = Option.none) (args : List Argument) :
    args.findSome? f = (args.filter (·.sort = s)).findSome? f := by
  induction args with
  | nil => rfl
  | cons a args ih =>
    by_cases ha : a.sort = s
    · simp [List.findSome?_cons, ha, ih]
    · simp [ha, hf a ha, ih]

/-- **Trailers of different sorts may change places.** -/
theorem summary_of_sameBySort {us vs : List Argument} (h : SameBySort us vs) :
    summary us = summary vs := by
  have hflags : us.findSome? Argument.flags? = vs.findSome? Argument.flags? := by
    have hf : ∀ a : Argument, a.sort ≠ .value → a.flags? = Option.none := fun a ha => by
      cases a <;> simp_all [Argument.sort, Argument.flags?]
    rw [findSome?_filter_sort hf us, h, ← findSome?_filter_sort hf]
  have hcancel : us.findSome? Argument.token? = vs.findSome? Argument.token? := by
    have hf : ∀ a : Argument, a.sort ≠ .cancel → a.token? = Option.none := fun a ha => by
      cases a <;> simp_all [Argument.sort, Argument.token?]
    rw [findSome?_filter_sort hf us, h, ← findSome?_filter_sort hf]
  have hreply : us.findSome? Argument.reply? = vs.findSome? Argument.reply? := by
    have hf : ∀ a : Argument, a.sort ≠ .reply → a.reply? = Option.none := fun a ha => by
      cases a <;> simp_all [Argument.sort, Argument.reply?]
    rw [findSome?_filter_sort hf us, h, ← findSome?_filter_sort hf]
  rw [summary, hflags, hcancel, hreply, summary]

theorem SameBySort.mem_iff {us vs : List Argument} (h : SameBySort us vs) {a : Argument} :
    a ∈ us ↔ a ∈ vs := by
  have hmem : ∀ args : List Argument, a ∈ args ↔ a ∈ args.filter (·.sort = a.sort) := by simp
  rw [hmem us, h, ← hmem]

/-- There are as many of them. -/
theorem SameBySort.length_eq {us vs : List Argument} (h : SameBySort us vs) :
    us.length = vs.length := by
  have hlength : ∀ args : List Argument, args.length
      = (args.filter (·.sort = .value)).length + (args.filter (·.sort = .cancel)).length +
        (args.filter (·.sort = .reply)).length + (args.filter (·.sort = .finish)).length := by
    intro args
    induction args with
    | nil => rfl
    | cons a args ih => cases a <;> simp [Argument.sort, ih] <;> omega
  rw [hlength us, hlength vs, h, h, h, h]

/-- Trailers of which no two are of one sort may stand in any order. -/
theorem sameBySort_of_perm {us vs : List Argument} (hperm : us.Perm vs)
    (hsorts : (us.map Argument.sort).Nodup) : SameBySort us vs := by
  intro s
  have hfilter := hperm.filter (fun a => decide (a.sort = s))
  have hnodup : ((us.filter (·.sort = s)).map Argument.sort).Nodup :=
    hsorts.sublist (List.filter_sublist.map _)
  cases hus : us.filter (·.sort = s) with
  | nil => rw [hus] at hfilter; exact hfilter.nil_eq
  | cons a rest =>
    cases rest with
    | nil => rw [hus] at hfilter; exact hfilter.singleton_eq
    | cons b rest =>
      -- Two of one sort are not among them.
      have hsort : ∀ c ∈ us.filter (·.sort = s), c.sort = s := fun c hc => by
        simpa using (List.mem_filter.mp hc).2
      rw [hus] at hsort hnodup
      have hne := (List.nodup_cons.mp hnodup).1
      rw [hsort a (by simp), List.map_cons, hsort b (by simp)] at hne
      exact absurd List.mem_cons_self hne

end Trailers

/-! ## 3. The declared arguments -/

/-- The argument is a value. -/
def Argument.IsValue (a : Argument) : Prop := ∃ v, a = .value v

variable {m : Method} {mode : CallMode} {args : List Argument}

/-- The declared arguments are values, and `body` is what packing them gives. -/
def Packs (m : Method) (args : List Argument) (body : Container) : Prop :=
  ∃ vs, args.take m.input.length = vs.map .value ∧ Container.pack m.input vs = .ok body

/-- What is wrong with the declared arguments: the leftmost that is no value, or, if they are all
values, what packing says. -/
inductive Unpacked (m : Method) (args : List Argument) : CallError → Prop where
  | value {before after : List Argument} {a : Argument} (h : args = before ++ a :: after)
      (hplace : before.length < m.input.length) (hbefore : ∀ b ∈ before, b.IsValue)
      (ha : ¬ a.IsValue) : Unpacked m args (.argumentType m.name before.length a.describe)
  | codec {vs : List Value} {e : PackError} (hvs : args.take m.input.length = vs.map .value)
      (he : Container.pack m.input vs = .error e) : Unpacked m args (.codec e)

theorem readValues_eq_ok {position : Nat} {vs : List Value} :
    readValues m position args = .ok vs ↔ args = vs.map .value := by
  induction args generalizing position vs with
  | nil => cases vs <;> simp [readValues]
  | cons a args ih =>
    cases a with
    | value v =>
      rw [readValues, bind_eq_ok]
      simp only [ih]
      constructor
      · rintro ⟨us, rfl, h⟩
        cases h
        rfl
      · intro h
        cases vs with
        | nil => cases h
        | cons u us =>
          obtain ⟨hu, hus⟩ := List.cons.inj h
          cases hu
          exact ⟨us, hus, rfl⟩
    | _ => cases vs <;> simp [readValues]

theorem readValues_eq_error {position : Nat} {e : CallError} :
    readValues m position args = .error e ↔ ∃ before a after, args = before ++ a :: after ∧
      (∀ b ∈ before, b.IsValue) ∧ ¬ a.IsValue ∧
      e = .argumentType m.name (position + before.length) a.describe := by
  induction args generalizing position with
  | nil => simp [readValues]
  | cons a args ih =>
    by_cases ha : a.IsValue
    · obtain ⟨v, rfl⟩ := ha
      rw [readValues, bind_eq_error]
      simp only [ih]
      constructor
      · rintro (⟨before, b, after, rfl, hbefore, hb, rfl⟩ | ⟨vs, -, h⟩)
        · refine ⟨.value v :: before, b, after, rfl, ?_, hb, ?_⟩
          · exact List.forall_mem_cons.mpr ⟨⟨v, rfl⟩, hbefore⟩
          · rw [List.length_cons, Nat.add_right_comm, Nat.add_assoc]
        · cases h
      · rintro ⟨before, b, after, h, hbefore, hb, rfl⟩
        cases before with
        | nil =>
          obtain ⟨rfl, -⟩ := List.cons.inj h
          exact absurd ⟨v, rfl⟩ hb
        | cons c before =>
          obtain ⟨rfl, rfl⟩ := List.cons.inj h
          refine Or.inl ⟨before, b, after, rfl, (List.forall_mem_cons.mp hbefore).2, hb, ?_⟩
          rw [List.length_cons, Nat.add_right_comm, Nat.add_assoc]
    · have hread : readValues m position (a :: args)
          = .error (.argumentType m.name position a.describe) := by
        cases a with
        | value v => exact absurd ⟨v, rfl⟩ ha
        | _ => rfl
      rw [hread, Except.error.injEq]
      constructor
      · rintro rfl
        exact ⟨[], a, args, rfl, by simp, ha, rfl⟩
      · rintro ⟨before, b, after, h, hbefore, -, rfl⟩
        cases before with
        | nil => cases h; rfl
        | cons c before =>
          obtain ⟨rfl, -⟩ := List.cons.inj h
          exact absurd (hbefore a (by simp)) ha

/-! ## 4. Whole lists -/

/-- The bounds on the length of a list. -/
theorem checkCount_eq_ok {c : Convention} {u : Unit} : checkCount m mode c args = .ok u ↔
    m.input.length + (c.trailers mode).1 ≤ args.length ∧
      args.length ≤ m.input.length + (c.trailers mode).2 := by
  unfold checkCount
  grind

theorem checkCount_eq_error {c : Convention} {e : CallError} :
    checkCount m mode c args = .error e ↔
      (args.length < m.input.length + (c.trailers mode).1 ∧
        e = .argumentCount m.name (m.input.length + (c.trailers mode).1) args.length) ∨
      m.input.length + (c.trailers mode).1 ≤ args.length ∧
        m.input.length + (c.trailers mode).2 < args.length ∧
        e = .argumentCount m.name (m.input.length + (c.trailers mode).2) args.length := by
  unfold checkCount
  grind

/-- Reads what follows the declared arguments. -/
def Trailers.read (m : Method) (mode : CallMode) (c : Convention) (args : List Argument) :
    Except CallError Trailers :=
  match c with
  | .full => Trailers.readFull m mode m.input.length (args.drop m.input.length)
  | .introspected => Trailers.readIntrospected m mode m.input.length (args.drop m.input.length)

theorem prepare_eq (m : Method) (mode : CallMode) (c : Convention) (args : List Argument) :
    prepare m mode c args = (do
      checkCount m mode c args
      let trailers ← Trailers.read m mode c args
      let values ← readValues m 0 (args.take m.input.length)
      let body ← (Container.pack m.input values).mapError .codec
      return { trailers with body }) := by
  cases c <;> rfl

/-- A call is made if every check holds. -/
theorem prepare_eq_ok {c : Convention} {call : PreparedCall} :
    prepare m mode c args = .ok call ↔ checkCount m mode c args = .ok () ∧
      Trailers.read m mode c args = .ok call.toTrailers ∧ Packs m args call.body := by
  rw [prepare_eq]
  simp only [bind_eq_ok, readValues_eq_ok, mapError_eq_ok, Packs, pure, Except.pure,
    Except.ok.injEq]
  constructor
  · rintro ⟨⟨⟩, hcount, t, ht, vs, hvs, body, hbody, rfl⟩
    exact ⟨hcount, ht, vs, hvs, hbody⟩
  · rintro ⟨hcount, ht, vs, hvs, hbody⟩
    exact ⟨(), hcount, _, ht, vs, hvs, _, hbody, rfl⟩

/-- The declared arguments fail as the leftmost that is no value, or as their packing. -/
theorem unpacked_iff {e : CallError} : Unpacked m args e ↔
    readValues m 0 (args.take m.input.length) = .error e ∨
      ∃ vs, readValues m 0 (args.take m.input.length) = .ok vs ∧
        (Container.pack m.input vs).mapError .codec = .error e := by
  simp only [readValues_eq_ok, readValues_eq_error, mapError_eq_error, Nat.zero_add]
  constructor
  · intro h
    cases h with
    | @value before after a hargs hplace hbefore ha =>
      refine Or.inl ⟨before, a, after.take (m.input.length - before.length - 1), ?_, hbefore, ha,
        rfl⟩
      obtain ⟨k, hk⟩ : ∃ k, m.input.length = before.length + (k + 1) :=
        ⟨m.input.length - before.length - 1, by omega⟩
      rw [hargs, hk, List.take_length_add_append, List.take_succ_cons, Nat.add_sub_cancel_left,
        Nat.add_sub_cancel]
    | codec hvs he => exact Or.inr ⟨_, hvs, _, he, rfl⟩
  · rintro (⟨before, a, after, htake, hbefore, ha, rfl⟩ | ⟨vs, hvs, d, hd, rfl⟩)
    · -- What follows the declared arguments does not matter here.
      have hargs : args = before ++ a :: (after ++ args.drop m.input.length) := by
        conv_lhs => rw [← List.take_append_drop m.input.length args, htake]
        simp
      have hplace : before.length < m.input.length := by
        have hlength := congrArg List.length htake
        simp only [List.length_take, List.length_append, List.length_cons] at hlength
        omega
      exact .value hargs hplace hbefore ha
    · exact .codec hvs hd

/-- No call is made as the first check says that does not hold. -/
theorem prepare_eq_error {c : Convention} {e : CallError} :
    prepare m mode c args = .error e ↔ checkCount m mode c args = .error e ∨
      checkCount m mode c args = .ok () ∧ (Trailers.read m mode c args = .error e ∨
        (∃ t, Trailers.read m mode c args = .ok t) ∧ Unpacked m args e) := by
  have hunit : ∀ P : Prop, (∃ u : Unit, checkCount m mode c args = .ok u ∧ P) ↔
      checkCount m mode c args = .ok () ∧ P := fun P => ⟨fun ⟨⟨⟩, h⟩ => h, fun h => ⟨_, h⟩⟩
  rw [prepare_eq, unpacked_iff]
  simp only [bind_eq_error, hunit, exists_and_right, pure, Except.pure, reduceCtorEq, and_false,
    exists_false, or_false]

/-! ## 5. The full convention -/

/-- The list has a length and trailers that the full convention allows. -/
structure FullList (m : Method) (mode : CallMode) (args : List Argument) : Prop where
  atLeast : m.input.length ≤ args.length
  atMost : args.length ≤ m.input.length + 3
  trailers : ∀ a ∈ args.drop m.input.length, a.Trails mode

/-- What becomes of a list by the full convention. -/
structure FullCall (m : Method) (args : List Argument) (c : PreparedCall) : Prop where
  body : Packs m args c.body
  flags : c.flags = (args.drop m.input.length).findSome? Argument.flags?
  cancel : c.cancel = (args.drop m.input.length).findSome? Argument.token?
  completion : c.completion
    = ((args.drop m.input.length).findSome? Argument.reply?).elim .log .reply

/-- Why the full convention refuses a list. -/
inductive FullFault (m : Method) (mode : CallMode) (args : List Argument) : CallError → Prop where
  | tooFew (h : args.length < m.input.length) :
      FullFault m mode args (.argumentCount m.name m.input.length args.length)
  | tooMany (h : m.input.length + 3 < args.length) :
      FullFault m mode args (.argumentCount m.name (m.input.length + 3) args.length)
  /-- The rightmost trailer that may not trail. -/
  | trailer {before after : List Argument} {a : Argument} (hmost : args.length ≤ m.input.length + 3)
      (h : args = before ++ a :: after) (hplace : m.input.length ≤ before.length)
      (ha : ¬ a.Trails mode) (hafter : ∀ b ∈ after, b.Trails mode) :
      FullFault m mode args (.argumentType m.name before.length a.describe)
  | unpacked {e : CallError} (hlist : FullList m mode args) (h : Unpacked m args e) :
      FullFault m mode args e

theorem prepare_full_eq_ok {c : PreparedCall} :
    prepare m mode .full args = .ok c ↔ FullList m mode args ∧ FullCall m args c := by
  rw [prepare_eq_ok, checkCount_eq_ok, Trailers.read, Trailers.readFull_eq_ok]
  constructor
  · rintro ⟨⟨hleast, hmost⟩, ⟨htrailers, hsummary⟩, hbody⟩
    refine ⟨⟨hleast, hmost, htrailers⟩, hbody, ?_, ?_, ?_⟩
    · exact (congrArg Trailers.flags hsummary).symm
    · exact (congrArg Trailers.cancel hsummary).symm
    · exact (congrArg Trailers.completion hsummary).symm
  · rintro ⟨⟨hleast, hmost, htrailers⟩, hbody, hflags, hcancel, hcompletion⟩
    refine ⟨⟨hleast, hmost⟩, ⟨htrailers, ?_⟩, hbody⟩
    rw [Trailers.summary, ← hflags, ← hcancel, ← hcompletion]

theorem prepare_full_eq_error {e : CallError} :
    prepare m mode .full args = .error e ↔ FullFault m mode args e := by
  rw [prepare_eq_error, checkCount_eq_error, checkCount_eq_ok, Trailers.read,
    Trailers.readFull_eq_error]
  simp only [Trailers.readFull_eq_ok, exists_and_left, exists_eq', and_true]
  constructor
  · rintro ((⟨h, rfl⟩ | ⟨-, h, rfl⟩) | ⟨⟨hleast, hmost⟩, h⟩)
    · exact .tooFew h
    · exact .tooMany h
    have hleast : m.input.length ≤ args.length := hleast
    rcases h with ⟨before, a, after, hdrop, ha, hafter, rfl⟩ | ⟨htrailers, h⟩
    · have hargs : args = (args.take m.input.length ++ before) ++ a :: after := by
        rw [List.append_assoc, ← hdrop, List.take_append_drop]
      have hlength : (args.take m.input.length ++ before).length
          = m.input.length + before.length := by
        rw [List.length_append, List.length_take, Nat.min_eq_left hleast]
      rw [← hlength]
      exact .trailer hmost hargs (by omega) ha hafter
    · exact .unpacked ⟨hleast, hmost, htrailers⟩ h
  · intro h
    cases h with
    | tooFew h => exact Or.inl (Or.inl ⟨h, rfl⟩)
    | tooMany h =>
      exact Or.inl (Or.inr ⟨show m.input.length + 0 ≤ args.length by omega, h, rfl⟩)
    | @trailer before after a hmost hargs hplace ha hafter =>
      have hleast : m.input.length ≤ args.length := by
        rw [hargs, List.length_append]
        omega
      refine Or.inr ⟨⟨hleast, hmost⟩, Or.inl ?_⟩
      refine ⟨before.drop m.input.length, a, after, ?_, ha, hafter, ?_⟩
      · rw [hargs, List.drop_append_of_le_length hplace]
      · rw [List.length_drop, Nat.add_sub_cancel' hplace]
    | unpacked hlist h =>
      exact Or.inr ⟨⟨hlist.atLeast, hlist.atMost⟩, Or.inr ⟨hlist.trailers, h⟩⟩

/-- Lists that differ in the order of trailers of different sorts make the same call. -/
theorem prepare_full_of_sameBySort {front us vs : List Argument} (c : PreparedCall)
    (hfront : front.length = m.input.length) (h : Trailers.SameBySort us vs) :
    prepare m mode .full (front ++ us) = .ok c ↔ prepare m mode .full (front ++ vs) = .ok c := by
  simp only [prepare_eq_ok, checkCount_eq_ok, Trailers.read, Trailers.readFull_eq_ok, Packs,
    List.drop_left' hfront, List.take_left' hfront, List.length_append, h.length_eq, h.mem_iff,
    Trailers.summary_of_sameBySort h]

/-- **The full convention is exact.**  A list makes a call just if its length and its trailers are
allowed and its declared arguments pack; the call is theirs, with the leftmost trailer of each sort;
trailers of different sorts may change places; and if there is no call, the error is that of the
first check that does not hold. -/
theorem prepare_full_exact (m : Method) (mode : CallMode) :
    (∀ args, (∃ c, prepare m mode .full args = .ok c) ↔
      FullList m mode args ∧ ∃ body, Packs m args body) ∧
    (∀ args c, prepare m mode .full args = .ok c → FullCall m args c) ∧
    (∀ (a : Argument) (f : CallFlags), a.flags? = some f ↔
      ∃ v, a = .value v ∧ v.asInt = some (f.bits.toNat : Int)) ∧
    (∀ front us vs c, front.length = m.input.length → Trailers.SameBySort us vs →
      (prepare m mode .full (front ++ us) = .ok c ↔ prepare m mode .full (front ++ vs) = .ok c)) ∧
    (∀ front us vs c, front.length = m.input.length → us.Perm vs →
      (us.map Argument.sort).Nodup →
      (prepare m mode .full (front ++ us) = .ok c ↔ prepare m mode .full (front ++ vs) = .ok c)) ∧
    ∀ args e, prepare m mode .full args = .error e ↔ FullFault m mode args e := by
  refine ⟨fun args => ?_, ?_, fun a f => Argument.flags?_eq_some, ?_, ?_, ?_⟩
  · constructor
    · rintro ⟨c, hc⟩
      obtain ⟨hlist, hcall⟩ := prepare_full_eq_ok.mp hc
      exact ⟨hlist, c.body, hcall.body⟩
    · rintro ⟨hlist, body, hbody⟩
      exact ⟨{ Trailers.summary (args.drop m.input.length) with body },
        prepare_full_eq_ok.mpr ⟨hlist, hbody, rfl, rfl, rfl⟩⟩
  · intro args c hc
    exact (prepare_full_eq_ok.mp hc).2
  · intro front us vs c hfront h
    exact prepare_full_of_sameBySort c hfront h
  · intro front us vs c hfront hperm hsorts
    exact prepare_full_of_sameBySort c hfront (Trailers.sameBySort_of_perm hperm hsorts)
  · intro args e
    exact prepare_full_eq_error

/-- A method that takes a text. -/
def say : Method := ⟨"Say", [.string], []⟩

/-- Of two tokens the left one counts, wherever the flags stand. -/
theorem prepare_full_exact_say : ∃ c,
    prepare say .async .full
      ([.value (.string "hello")] ++
        [.cancel ⟨"a"⟩, .value (.int .byte ⟨7, by decide⟩), .cancel ⟨"b"⟩]) = .ok c ∧
    prepare say .async .full
      ([.value (.string "hello")] ++
        [.value (.int .byte ⟨7, by decide⟩), .cancel ⟨"a"⟩, .cancel ⟨"b"⟩]) = .ok c ∧
    c.flags = some ⟨7⟩ ∧ c.cancel = some ⟨"a"⟩ ∧ c.completion = .log ∧
    ∀ d, prepare say .async .full
        ([.value (.string "hello")] ++ [.reply "r", .cancel ⟨"a"⟩]) = .ok d ↔
      prepare say .async .full
        ([.value (.string "hello")] ++ [.cancel ⟨"a"⟩, .reply "r"]) = .ok d := by
  obtain ⟨-, hcall, -, hsame, hperm, -⟩ := prepare_full_exact say .async
  have hsorts : Trailers.SameBySort
      [.cancel ⟨"a"⟩, .value (.int .byte ⟨7, by decide⟩), .cancel ⟨"b"⟩]
      [.value (.int .byte ⟨7, by decide⟩), .cancel ⟨"a"⟩, .cancel ⟨"b"⟩] := by
    intro s
    cases s <;> rfl
  obtain ⟨c, hc⟩ : ∃ c, prepare say .async .full
      ([.value (.string "hello")] ++
        [.cancel ⟨"a"⟩, .value (.int .byte ⟨7, by decide⟩), .cancel ⟨"b"⟩]) = .ok c := ⟨_, rfl⟩
  obtain ⟨-, hflags, hcancel, hcompletion⟩ := hcall _ c hc
  refine ⟨c, hc, (hsame _ _ _ c rfl hsorts).mp hc, hflags, hcancel, hcompletion, fun d => ?_⟩
  exact hperm _ _ _ d rfl (.swap _ _ _) (by decide)

/-! ## 6. The trailers of the introspected convention -/

namespace Trailers

/-- In a synchronous call it is what stands behind the declared arguments that counts. -/
theorem read_sync_eq_ok {t : Trailers} : read m .sync .introspected args = .ok t ↔
    (∀ a, args[m.input.length]? = some a → a.sort = .cancel) ∧
      t = { none with cancel := args[m.input.length]?.bind Argument.token? } := by
  rw [read, readIntrospected, ← List.head?_drop]
  cases args.drop m.input.length with
  | nil => simp [readCancel, none, eq_comm]
  | cons a rest => cases a <;> simp [readCancel, Argument.sort, Argument.token?, eq_comm]

theorem read_sync_eq_error {e : CallError} : read m .sync .introspected args = .error e ↔
    ∃ a, args[m.input.length]? = some a ∧ a.sort ≠ .cancel ∧
      e = .argumentType m.name m.input.length a.describe := by
  rw [read, readIntrospected, ← List.head?_drop]
  cases args.drop m.input.length with
  | nil => simp [readCancel]
  | cons a rest => cases a <;> simp [readCancel, refuse, Argument.sort, eq_comm]

/-- In an asynchronous call what stands before the handler is read as in a synchronous one, -/
theorem read_async_finish {front : List Argument} (h : m.input.length ≤ front.length)
    (handler : String) : read m .async .introspected (front ++ [.finish handler])
      = (read m .sync .introspected front).map ({ · with completion := .finish handler }) := by
  rw [read, List.drop_append_of_le_length h, readIntrospected, List.getLast?_concat,
    List.dropLast_concat]
  rfl

/-- and not at all if there is no handler. -/
theorem read_async_other {front : List Argument} (h : m.input.length ≤ front.length)
    {a : Argument} (ha : a.sort ≠ .finish) : read m .async .introspected (front ++ [a])
      = .error (.argumentType m.name front.length a.describe) := by
  have hposition : m.input.length + (front.drop m.input.length ++ [a]).length - 1
      = front.length := by
    rw [List.length_append, List.length_drop, List.length_singleton]
    omega
  rw [read, List.drop_append_of_le_length h, readIntrospected, List.getLast?_concat]
  cases a with
  | finish handler => exact absurd rfl ha
  | _ => simp only [refuse, hposition]

theorem read_async_eq_ok {front : List Argument} (h : m.input.length ≤ front.length)
    {a : Argument} {t : Trailers} : read m .async .introspected (front ++ [a]) = .ok t ↔
      ∃ handler u, a = .finish handler ∧ read m .sync .introspected front = .ok u ∧
        t = { u with completion := .finish handler } := by
  by_cases ha : a.sort = .finish
  · cases a with
    | finish handler =>
      rw [read_async_finish h]
      cases read m .sync .introspected front <;> simp [Except.map, eq_comm]
    | _ => cases ha
  · rw [read_async_other h ha]
    cases a <;> simp_all [Argument.sort]

theorem read_async_eq_error {front : List Argument} (h : m.input.length ≤ front.length)
    {a : Argument} {e : CallError} : read m .async .introspected (front ++ [a]) = .error e ↔
      (a.sort ≠ .finish ∧ e = .argumentType m.name front.length a.describe) ∨
      a.sort = .finish ∧ read m .sync .introspected front = .error e := by
  by_cases ha : a.sort = .finish
  · cases a with
    | finish handler =>
      rw [read_async_finish h]
      cases read m .sync .introspected front <;> simp [Except.map, Argument.sort]
    | _ => cases ha
  · simp [read_async_other h ha, ha, eq_comm]

end Trailers

/-! ## 7. The introspected convention -/

/-- The handlers that a call takes by the introspected convention. -/
def CallMode.handlers : CallMode → Nat
  | .sync => 0
  | .async => 1

/-- The list has a length that a synchronous call allows, and what stands behind the declared
arguments is a token. -/
def SyncList (m : Method) (args : List Argument) : Prop :=
  args.length = m.input.length ∨
    args.length = m.input.length + 1 ∧ ∃ token, args[m.input.length]? = some (.cancel token)

/-- The list has a length and trailers that the introspected convention allows. -/
def IntrospectedList (m : Method) : CallMode → List Argument → Prop
  | .sync, args => SyncList m args
  | .async, args => ∃ front handler, args = front ++ [.finish handler] ∧ SyncList m front

/-- What becomes of a list by the introspected convention. -/
structure IntrospectedCall (m : Method) (mode : CallMode) (args : List Argument)
    (c : PreparedCall) : Prop where
  body : Packs m args c.body
  flags : c.flags = none
  cancel : c.cancel = args[m.input.length]?.bind Argument.token?
  logs : mode = .sync → c.completion = .log
  finishes : mode = .async →
    ∃ handler, args.getLast? = some (.finish handler) ∧ c.completion = .finish handler
  handler : c.hasHandler = true ↔ mode = .async
  /-- Integers and reply handlers do not trail. -/
  trailers : ∀ a ∈ args.drop m.input.length, a.sort = .cancel ∨ a.sort = .finish

/-- Why the introspected convention refuses a list. -/
inductive IntrospectedFault (m : Method) (mode : CallMode) (args : List Argument) :
    CallError → Prop where
  | tooFew (h : args.length < m.input.length + mode.handlers) : IntrospectedFault m mode args
      (.argumentCount m.name (m.input.length + mode.handlers) args.length)
  | tooMany (h : m.input.length + mode.handlers + 1 < args.length) :
      IntrospectedFault m mode args
        (.argumentCount m.name (m.input.length + mode.handlers + 1) args.length)
  /-- The last argument of an asynchronous call is no handler. -/
  | handler {front : List Argument} {a : Argument} (hmode : mode = .async)
      (h : args = front ++ [a]) (hleast : m.input.length ≤ front.length)
      (hmost : front.length ≤ m.input.length + 1) (ha : a.sort ≠ .finish) :
      IntrospectedFault m mode args (.argumentType m.name front.length a.describe)
  /-- What stands behind the declared arguments, and before the handler, is no token. -/
  | token {front rest : List Argument} {a : Argument} (h : args = front ++ a :: rest)
      (hplace : front.length = m.input.length) (hrest : rest.length = mode.handlers)
      (hhandler : ∀ b ∈ rest, b.sort = .finish) (ha : a.sort ≠ .cancel) :
      IntrospectedFault m mode args (.argumentType m.name front.length a.describe)
  | unpacked {e : CallError} (hlist : IntrospectedList m mode args) (h : Unpacked m args e) :
      IntrospectedFault m mode args e

theorem syncList_iff : SyncList m args ↔
    (m.input.length ≤ args.length ∧ args.length ≤ m.input.length + 1) ∧
      ∀ a, args[m.input.length]? = some a → a.sort = .cancel := by
  constructor
  · rintro (h | ⟨h, token, htoken⟩)
    · exact ⟨by omega, by simp [List.getElem?_eq_none (Nat.le_of_eq h)]⟩
    · refine ⟨by omega, fun a ha => ?_⟩
      rw [htoken] at ha
      cases ha
      rfl
  · rintro ⟨⟨hleast, hmost⟩, h⟩
    rcases Nat.lt_or_ge m.input.length args.length with hlt | hle
    · refine Or.inr ⟨by omega, ?_⟩
      have hsort := h _ (List.getElem?_eq_getElem hlt)
      rw [List.getElem?_eq_getElem hlt]
      cases hget : args[m.input.length] with
      | cancel token => exact ⟨token, rfl⟩
      | _ => rw [hget] at hsort; cases hsort
    · exact Or.inl (by omega)

theorem checkCount_introspected_eq_ok {u : Unit} :
    checkCount m mode .introspected args = .ok u ↔ m.input.length + mode.handlers ≤ args.length ∧
      args.length ≤ m.input.length + mode.handlers + 1 := by
  rw [checkCount_eq_ok]
  cases mode <;> rfl

theorem checkCount_introspected_eq_error {e : CallError} :
    checkCount m mode .introspected args = .error e ↔
      (args.length < m.input.length + mode.handlers ∧
        e = .argumentCount m.name (m.input.length + mode.handlers) args.length) ∨
      m.input.length + mode.handlers ≤ args.length ∧
        m.input.length + mode.handlers + 1 < args.length ∧
        e = .argumentCount m.name (m.input.length + mode.handlers + 1) args.length := by
  rw [checkCount_eq_error]
  cases mode <;> rfl

/-- The lists that the introspected convention allows, and what their trailers say. -/
inductive Closes (m : Method) : CallMode → List Argument → Trailers → Prop where
  | sync {args : List Argument} (h : SyncList m args) : Closes m .sync args
      { Trailers.none with cancel := args[m.input.length]?.bind Argument.token? }
  | async {front : List Argument} (h : SyncList m front) (handler : String) :
      Closes m .async (front ++ [.finish handler])
        { Trailers.none with
          cancel := front[m.input.length]?.bind Argument.token?
          completion := .finish handler }

theorem introspectedList_iff : IntrospectedList m mode args ↔ ∃ t, Closes m mode args t := by
  cases mode with
  | sync => exact ⟨fun h => ⟨_, .sync h⟩, fun ⟨_, .sync h⟩ => h⟩
  | async =>
    constructor
    · rintro ⟨front, handler, rfl, h⟩
      exact ⟨_, .async h handler⟩
    · rintro ⟨t, h⟩
      cases h with
      | @async front h handler => exact ⟨front, handler, rfl, h⟩

/-- A list with room for a handler, cut before its last argument. -/
theorem exists_eq_append_last {n : Nat} (h : n + 1 ≤ args.length) :
    ∃ front a, args = front ++ [a] ∧ n ≤ front.length := by
  have hne : args ≠ [] := List.ne_nil_of_length_pos (Nat.lt_of_lt_of_le n.succ_pos h)
  refine ⟨args.dropLast, args.getLast hne, (List.dropLast_append_getLast hne).symm, ?_⟩
  rw [List.length_dropLast]
  exact Nat.le_sub_of_add_le h

/-- The trailers of an allowed list are read, and no others. -/
theorem closes_iff {t : Trailers} : Closes m mode args t ↔
    checkCount m mode .introspected args = .ok () ∧
      Trailers.read m mode .introspected args = .ok t := by
  rw [checkCount_introspected_eq_ok]
  constructor
  · intro h
    cases h with
    | sync h =>
      obtain ⟨hcount, htoken⟩ := syncList_iff.mp h
      exact ⟨hcount, Trailers.read_sync_eq_ok.mpr ⟨htoken, rfl⟩⟩
    | @async front h handler =>
      obtain ⟨⟨hleast, hmost⟩, htoken⟩ := syncList_iff.mp h
      have hread := Trailers.read_sync_eq_ok.mpr ⟨htoken, rfl⟩
      refine ⟨?_, (Trailers.read_async_eq_ok hleast).mpr ⟨handler, _, rfl, hread, rfl⟩⟩
      rw [List.length_append]
      exact ⟨Nat.succ_le_succ hleast, Nat.succ_le_succ hmost⟩
  · rintro ⟨⟨hleast, hmost⟩, hread⟩
    cases mode with
    | sync =>
      obtain ⟨htoken, rfl⟩ := Trailers.read_sync_eq_ok.mp hread
      exact .sync (syncList_iff.mpr ⟨⟨hleast, hmost⟩, htoken⟩)
    | async =>
      obtain ⟨front, a, rfl, hfront⟩ := exists_eq_append_last hleast
      rw [List.length_append] at hmost
      obtain ⟨handler, u, rfl, hu, rfl⟩ := (Trailers.read_async_eq_ok hfront).mp hread
      obtain ⟨htoken, rfl⟩ := Trailers.read_sync_eq_ok.mp hu
      exact .async (syncList_iff.mpr ⟨⟨hfront, Nat.le_of_succ_le_succ hmost⟩, htoken⟩) handler

theorem prepare_introspected_eq_ok {c : PreparedCall} :
    prepare m mode .introspected args = .ok c ↔
      Closes m mode args c.toTrailers ∧ Packs m args c.body := by
  rw [prepare_eq_ok, closes_iff, and_assoc]

/-- What stands behind the declared arguments of a synchronous list is a token. -/
theorem SyncList.trailers (h : SyncList m args) : ∀ a ∈ args.drop m.input.length,
    a.sort = .cancel := by
  obtain ⟨⟨-, hmost⟩, htoken⟩ := syncList_iff.mp h
  intro a ha
  obtain ⟨j, hj, rfl⟩ := List.mem_drop_iff_getElem.mp ha
  obtain rfl : j = 0 := by omega
  exact htoken _ (List.getElem?_eq_getElem (by omega))

/-- **What an accepted list becomes.** -/
theorem introspectedCall_of_prepare {c : PreparedCall} (h : prepare m mode .introspected args = .ok c) :
    IntrospectedCall m mode args c := by
  obtain ⟨trailers, body⟩ := c
  obtain ⟨hcloses, hbody⟩ := prepare_introspected_eq_ok.mp h
  cases hcloses with
  | sync hlist =>
    exact
      { body := hbody
        flags := rfl
        cancel := rfl
        logs := fun _ => rfl
        finishes := fun hmode => by cases hmode
        handler := by simp [PreparedCall.hasHandler, Trailers.none]
        trailers := fun a ha => Or.inl (hlist.trailers a ha) }
  | @async front hlist handler =>
    have hfront : m.input.length ≤ front.length := (syncList_iff.mp hlist).1.1
    exact
      { body := hbody
        flags := rfl
        cancel := by
          -- Without a token it is the handler that stands there, and it is none.
          rcases Nat.lt_or_eq_of_le hfront with hlt | heq
          · rw [List.getElem?_append_left hlt]
          · rw [heq, List.getElem?_eq_none (Nat.le_refl _), List.getElem?_concat_length]
            rfl
        logs := fun hmode => by cases hmode
        finishes := fun _ => ⟨handler, List.getLast?_concat, rfl⟩
        handler := by simp [PreparedCall.hasHandler]
        trailers := fun a ha => by
          rw [List.drop_append_of_le_length hfront, List.mem_append, List.mem_singleton] at ha
          rcases ha with ha | rfl
          · exact Or.inl (hlist.trailers a ha)
          · exact Or.inr rfl }

/-- What stands behind the declared arguments of a synchronous call is refused as it says. -/
theorem exists_of_read_sync_eq_error {e : CallError} (hmost : args.length ≤ m.input.length + 1)
    (h : Trailers.read m .sync .introspected args = .error e) :
    ∃ front a, args = front ++ [a] ∧ front.length = m.input.length ∧ a.sort ≠ .cancel ∧
      e = .argumentType m.name front.length a.describe := by
  obtain ⟨a, ha, hsort, rfl⟩ := Trailers.read_sync_eq_error.mp h
  obtain ⟨hlt, rfl⟩ := List.getElem?_eq_some_iff.mp ha
  have hlength : (args.take m.input.length).length = m.input.length := by
    rw [List.length_take, Nat.min_eq_left (Nat.le_of_lt hlt)]
  refine ⟨args.take m.input.length, _, ?_, hlength, hsort, by rw [hlength]⟩
  rw [List.take_append_getElem hlt, List.take_of_length_le hmost]

theorem read_sync_of_append {front : List Argument} {a : Argument}
    (hplace : front.length = m.input.length) (ha : a.sort ≠ .cancel) :
    Trailers.read m .sync .introspected (front ++ [a])
      = .error (.argumentType m.name front.length a.describe) := by
  refine Trailers.read_sync_eq_error.mpr ⟨a, ?_, ha, by rw [hplace]⟩
  rw [← hplace, List.getElem?_concat_length]

/-- Trailers that are refused, in a list of a length that is allowed. -/
theorem introspectedFault_of_read {e : CallError}
    (hcount : checkCount m mode .introspected args = .ok ())
    (h : Trailers.read m mode .introspected args = .error e) : IntrospectedFault m mode args e := by
  obtain ⟨hleast, hmost⟩ := checkCount_introspected_eq_ok.mp hcount
  cases mode with
  | sync =>
    obtain ⟨front, a, rfl, hplace, ha, rfl⟩ := exists_of_read_sync_eq_error hmost h
    exact .token rfl hplace rfl (by simp) ha
  | async =>
    obtain ⟨front, b, rfl, hfront⟩ := exists_eq_append_last hleast
    rw [List.length_append] at hmost
    have hmost : front.length ≤ m.input.length + 1 := Nat.le_of_succ_le_succ hmost
    rcases (Trailers.read_async_eq_error hfront).mp h with ⟨hb, rfl⟩ | ⟨hb, h⟩
    · exact .handler rfl rfl hfront hmost hb
    · obtain ⟨front, a, rfl, hplace, ha, rfl⟩ := exists_of_read_sync_eq_error hmost h
      exact .token (List.append_assoc front [a] [b]) hplace rfl (by simpa using hb) ha

theorem prepare_introspected_eq_error {e : CallError} :
    prepare m mode .introspected args = .error e ↔ IntrospectedFault m mode args e := by
  rw [prepare_eq_error, checkCount_introspected_eq_error]
  constructor
  · rintro ((⟨h, rfl⟩ | ⟨-, h, rfl⟩) | ⟨hcount, h | ⟨⟨t, ht⟩, h⟩⟩)
    · exact .tooFew h
    · exact .tooMany h
    · exact introspectedFault_of_read hcount h
    · exact .unpacked (introspectedList_iff.mpr ⟨t, closes_iff.mpr ⟨hcount, ht⟩⟩) h
  · intro h
    cases h with
    | tooFew h => exact Or.inl (Or.inl ⟨h, rfl⟩)
    | tooMany h => exact Or.inl (Or.inr ⟨by omega, h, rfl⟩)
    | @handler front a hmode h hleast hmost ha =>
      subst hmode h
      refine Or.inr ⟨checkCount_introspected_eq_ok.mpr ?_, Or.inl ?_⟩
      · rw [List.length_append]
        exact ⟨Nat.succ_le_succ hleast, Nat.succ_le_succ hmost⟩
      · exact (Trailers.read_async_eq_error hleast).mpr (Or.inl ⟨ha, rfl⟩)
    | @token front rest a h hplace hrest hhandler ha =>
      subst h
      refine Or.inr ⟨checkCount_introspected_eq_ok.mpr ?_, Or.inl ?_⟩
      · rw [List.length_append, List.length_cons, hplace, hrest]
        omega
      cases mode with
      | sync =>
        obtain rfl := List.length_eq_zero_iff.mp hrest
        exact read_sync_of_append hplace ha
      | async =>
        obtain ⟨b, rfl⟩ := List.length_eq_one_iff.mp hrest
        have hfront : m.input.length ≤ (front ++ [a]).length := by
          rw [List.length_append, hplace]
          exact Nat.le_add_right _ _
        rw [List.append_cons]
        exact (Trailers.read_async_eq_error hfront).mpr
          (Or.inr ⟨hhandler b (by simp), read_sync_of_append hplace ha⟩)
    | unpacked hlist h =>
      obtain ⟨t, ht⟩ := introspectedList_iff.mp hlist
      obtain ⟨hcount, hread⟩ := closes_iff.mp ht
      exact Or.inr ⟨hcount, Or.inr ⟨⟨t, hread⟩, h⟩⟩

/-- **The introspected convention is exact.**  A list makes a call just if it ends as its mode asks
for and its declared arguments pack; the call is theirs, without flags and with the token and the
handler that the list ends in; and if there is no call, the error is that of the first check that
does not hold. -/
theorem prepare_introspected_exact (m : Method) (mode : CallMode) (args : List Argument) :
    ((∃ c, prepare m mode .introspected args = .ok c) ↔
      IntrospectedList m mode args ∧ ∃ body, Packs m args body) ∧
    (∀ c, prepare m mode .introspected args = .ok c → IntrospectedCall m mode args c) ∧
    ∀ e, prepare m mode .introspected args = .error e ↔ IntrospectedFault m mode args e := by
  refine ⟨?_, fun c => introspectedCall_of_prepare, fun e => prepare_introspected_eq_error⟩
  constructor
  · rintro ⟨c, hc⟩
    obtain ⟨hcloses, hbody⟩ := prepare_introspected_eq_ok.mp hc
    exact ⟨introspectedList_iff.mpr ⟨_, hcloses⟩, c.body, hbody⟩
  · rintro ⟨hlist, body, hbody⟩
    obtain ⟨t, ht⟩ := introspectedList_iff.mp hlist
    exact ⟨⟨t, body⟩, prepare_introspected_eq_ok.mpr ⟨ht, hbody⟩⟩

/-- The token stands between the text and the handler. -/
theorem prepare_introspected_exact_say : ∃ c,
    prepare say .async .introspected
      [.value (.string "hello"), .cancel ⟨"a"⟩, .finish "f"] = .ok c ∧
    IntrospectedCall say .async [.value (.string "hello"), .cancel ⟨"a"⟩, .finish "f"] c ∧
    c.cancel = some ⟨"a"⟩ ∧ c.completion = .finish "f" := by
  obtain ⟨-, hcall, -⟩ := prepare_introspected_exact say .async
    [.value (.string "hello"), .cancel ⟨"a"⟩, .finish "f"]
  obtain ⟨c, hc⟩ : ∃ c, prepare say .async .introspected
      [.value (.string "hello"), .cancel ⟨"a"⟩, .finish "f"] = .ok c := ⟨_, rfl⟩
  have hexact := hcall c hc
  obtain ⟨handler, hlast, hcompletion⟩ := hexact.finishes rfl
  cases hlast
  exact ⟨c, hc, hexact, hexact.cancel, hcompletion⟩

/-- Flags do not stand there. -/
example : prepare say .async .introspected
    [.value (.string "hello"), .value (.int .byte ⟨7, by decide⟩), .finish "f"]
      = .error (.argumentType "Say" 1 "byte") := by rfl

end MessageBus

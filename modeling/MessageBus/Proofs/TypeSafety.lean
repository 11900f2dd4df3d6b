/-
# Values arrive as they are declared

A call crosses two interfaces, that of the proxy and that of the object, and nothing makes them
agree.  Handlers may return anything, and an answer may be any container.  Still each side gets only
what its own interface declares, and that is what `World.type_safe` says of every run.

* A handler of a method runs only on as many arguments as the object's interface declares for it,
  each canonical for its tag (`Handling.Typed`).  A body with other tags is refused, and whoever
  waits for the reply is told so.
* A caller gets only as many values as the proxy's interface declares, each canonical for its tag,
  whether it waits for them, has a reply handler or reads a result later.  A reply with other tags
  is a mismatch (`Method.Reads`).

Both rest on the same two facts: the values of a container are canonical for the container's own
tags, and no values leave a container without a look at these.  The invariant of a run is about
handlers alone: what a completion is given is a function of the outcome, and the ledger of the run
says which.
-/
import MessageBus.Proofs.Calls
import MessageBus.Proofs.Dispatching
import MessageBus.Proofs.Fitting
import MessageBus.Proofs.Ledger

namespace MessageBus

/-! ## 1. What is read from a container -/

/-- As many values as tags, each canonical for its tag. -/
structure TypedAs (ts : List Tag) (vs : List Value) : Prop where
  count : vs.length = ts.length
  canonical : CanonicalAll ts vs

/-- The values of a container are typed as the tags that it has. -/
theorem Container.typedAs {c : Container} {ts : List Tag} (h : c.tags = ts) :
    TypedAs ts c.values := by
  subst h
  exact ⟨c.canonical.length_eq.symm, c.canonical⟩

/-- What the caller of `m` makes of an outcome: values only if they are typed as the method's
output, and a mismatch of any reply with other tags. -/
structure Method.Reads (m : Method) (outcome : Except TransportError Container)
    (result : Except CallError (List Value)) : Prop where
  typed (vs : List Value) (h : result = .ok vs) : TypedAs m.output vs
  mismatch (c : Container) (h : outcome = .ok c) (htags : c.tags ≠ m.output) :
    result = .error (.replyMismatch m.name (.signatureMismatch m.output c.tags))

/-- **A reply is read as it is declared.** -/
theorem reads_readReply (m : Method) (outcome : Except TransportError Container) :
    m.Reads outcome (readReply m outcome) := by
  cases outcome with
  | error e => exact ⟨fun _ h => (nomatch h), fun _ h => (nomatch h)⟩
  | ok c =>
    have hread : readReply m (.ok c) = (c.unpackAs m.output).mapError (.replyMismatch m.name) := rfl
    by_cases htags : c.tags = m.output
    · rw [hread, Container.unpackAs, if_pos htags]
      refine ⟨fun vs h => ?_, fun d h hne => ?_⟩
      · cases h
        exact Container.typedAs htags
      · cases h
        exact absurd htags hne
    · rw [hread, Container.unpackAs, if_neg htags]
      refine ⟨fun _ h => (nomatch h), fun d h _ => ?_⟩
      cases h
      rfl

/-- Whoever reads a result through a member reads it as the method of the call declares. -/
theorem typedAs_finish {p : Proxy} {member : String} {r : AsyncResult} {vs : List Value}
    (h : p.finish member r = .ok vs) : TypedAs r.method.output vs := by
  unfold Proxy.finish at h
  split at h
  · split at h
    · exact (reads_readReply r.method r.reply).typed vs h
    · cases h
  · cases h

/-! ## 2. Handlers -/

/-- The handler that has run is one of its object's, for a method that the object's interface
declares, and it was given arguments that are typed as the method's input. -/
def Handling.Typed (w : World) (h : Handling) : Prop :=
  ∃ o m, w.handlers? h.object = some o ∧ o.interface.method? h.method = some m ∧
    ((o.sync.get? h.method).isSome ∨ (o.async.get? h.method).isSome) ∧ TypedAs m.input h.args

theorem Interface.method?_name {i : Interface} {name : String} {m : Method}
    (h : i.method? name = some m) : m.name = name := by
  simpa using List.find?_some h

namespace World

variable {w w' : World}

/-- A call to the object's handlers for the invocation `i` is refused if its body has other tags
than the object's interface declares: no handler runs, and a request that waits for the reply comes
to the error. -/
def Checks (w w' : World) (o : Handlers) (i : Nat) (member : String) (body : Container) : Prop :=
  ∀ m, o.interface.method? member = some m → body.tags ≠ m.input →
    w'.handlings = w.handlings ∧ ∀ r deadline, w'.lookReply r i deadline
      = .inl (.error (.remote (.invalidArgs
          (s!"Type of message, '{body.signature}', does not match " ++
            s!"expected type '{Tag.tuple m.input}'"))))

theorem Dispatched.checks {o : Handlers} {object i : Nat} {member : String} {body : Container}
    (h : w.Dispatched w' o object i member body) : w.Checks w' o i member body := by
  intro m hm ht
  obtain ⟨hhandlings, hreply⟩ := h.mistyped hm ht
  exact ⟨hhandlings, fun r deadline => by rw [lookReply, hreply]⟩

/-- **A dispatch runs a handler on typed arguments**, if it runs one. -/
theorem Dispatched.ran {o : Handlers} {object i : Nat} {member : String} {body : Container}
    (h : w.Dispatched w' o object i member body) :
    w'.handlings = w.handlings ∨
      ∃ m, o.interface.method? m.name = some m ∧
        ((o.sync.get? m.name).isSome ∨ (o.async.get? m.name).isSome) ∧
        TypedAs m.input body.values ∧
        w'.handlings = w.handlings ++ [⟨object, i, m.name, body.values⟩] := by
  cases hm : o.interface.method? member with
  | none => exact Or.inl (h.undeclared hm).1
  | some m =>
    by_cases ht : body.tags = m.input
    · have hdeclared : o.interface.method? m.name = some m := by
        rw [Interface.method?_name hm, hm]
      have htyped := Container.typedAs ht
      cases hs : o.sync.get? m.name with
      | some f =>
        exact Or.inr ⟨m, hdeclared, Or.inl (by rw [hs]; rfl), htyped, (h.sync hm ht hs).1⟩
      | none =>
        cases ha : o.async.get? m.name with
        | some f =>
          exact Or.inr ⟨m, hdeclared, Or.inr (by rw [ha]; rfl), htyped, (h.async hm ht hs ha).1⟩
        | none => exact Or.inl (h.unhandled hm ht hs ha).1
    · exact Or.inl (h.mistyped hm ht).1

/-- Every handler that has run was given arguments that are typed. -/
def HandledTyped (w : World) : Prop := ∀ h ∈ w.handlings, h.Typed w

/-- The handlers of an object are always the same. -/
theorem HandledTyped.later (h : w.HandledTyped) (hl : w.Later w')
    (heq : w'.handlings = w.handlings) : w'.HandledTyped := by
  intro e he
  rw [heq] at he
  obtain ⟨o, m, ho, htyped⟩ := h e he
  exact ⟨o, m, hl.handlers ho, htyped⟩

theorem HandledTyped.dispatched (h : w.HandledTyped) (hl : w.Later w') {o : Handlers}
    {object i : Nat} {member : String} {body : Container} (ho : w.handlers? object = some o)
    (hd : w.Dispatched w' o object i member body) : w'.HandledTyped := by
  rcases hd.ran with heq | ⟨m, hm, hhandler, htyped, heq⟩
  · exact h.later hl heq
  · intro e he
    rw [heq, List.mem_append, List.mem_singleton] at he
    rcases he with he | rfl
    · obtain ⟨o', m', ho', htyped'⟩ := h e he
      exact ⟨o', m', hl.handlers ho', htyped'⟩
    · exact ⟨o, m, hl.handlers ho, hm, hhandler, htyped⟩

/-- **Every move runs handlers on typed arguments only.** -/
theorem handledTyped_act (hs : w.Sound) (h : w.HandledTyped) (m : Move) :
    (w.act m).HandledTyped := by
  have hl := later_act hs.orderly m
  rcases handlings_act hs.orderly m with heq | ⟨t, object, i, member, body, rfl, ht⟩ |
    ⟨object, sender, path, member, body, rfl⟩
  · exact h.later hl heq
  · obtain ⟨o, ho, hd⟩ := dispatched_poll hs.orderly hs.owing ht
    exact h.dispatched hl ho hd
  · cases ho : w.handlers? object with
    | some o => exact h.dispatched hl ho (dispatched_call hs.orderly ho sender path member body)
    | none =>
      -- There is no such object: the move changes nothing.
      have hobject : w.objects.get? object = none := Option.map_eq_none_iff.mp ho
      have hact : w.act (.call object sender path member body) = w := by
        simp only [act, withObject, hobject, Option.elim_none]
      rw [hact]
      exact h

/-- So does every run. -/
theorem handledTyped_run (ms : List Move) : (empty.run ms).HandledTyped := by
  have hempty : empty.HandledTyped := by
    intro h hh
    cases hh
  exact (run_keeps (P := fun w => w.Sound ∧ w.HandledTyped)
    (fun _ m h => ⟨h.1.act m, handledTyped_act h.1 h.2 m⟩) ms ⟨sound_empty, hempty⟩).2

/-! ## 3. Callers -/

theorem reads_callMethodSync {p : Proxy} {m : Method} {args : List Argument}
    {result : Except CallError (List Value)} (h : (w.callMethodSync p m args).2 = some result) :
    (∃ e, prepare m .sync p.convention args = .error e ∧ result = .error e) ∨
      ∃ c outcome, prepare m .sync p.convention args = .ok c ∧
        (w.await (callRequest p m c .answer)).2 = some outcome ∧ m.Reads outcome result := by
  unfold callMethodSync at h
  cases hc : prepare m .sync p.convention args with
  | error e =>
    rw [hc] at h
    cases h
    exact Or.inl ⟨e, rfl, rfl⟩
  | ok c =>
    rw [hc] at h
    obtain ⟨outcome, houtcome, rfl⟩ := Option.map_eq_some_iff.mp h
    exact Or.inr ⟨c, outcome, rfl, houtcome, reads_readReply m outcome⟩

theorem typedAs_callMethodSync {p : Proxy} {m : Method} {args : List Argument} {vs : List Value}
    (h : (w.callMethodSync p m args).2 = some (.ok vs)) : TypedAs m.output vs := by
  rcases reads_callMethodSync h with ⟨e, -, he⟩ | ⟨c, outcome, -, -, hreads⟩
  · cases he
  · exact hreads.typed vs rfl

/-- A call by name is one of the method that the proxy's interface declares under the name. -/
theorem typedAs_callSync {p : Proxy} {name : String} {args : List Argument} {vs : List Value}
    (h : (w.callSync p name args).2 = some (.ok vs)) :
    ∃ m, p.interface.method? name = some m ∧ TypedAs m.output vs := by
  unfold callSync Proxy.method at h
  cases hm : p.interface.method? name with
  | none =>
    rw [hm] at h
    cases h
  | some m =>
    rw [hm] at h
    exact ⟨m, rfl, typedAs_callMethodSync h⟩

theorem callRemote_eq {p : Proxy} {name : String} {m : Method}
    (hm : p.interface.method? name = some m) (id : Nat) (args : List Argument) :
    w.callRemote id p name args = w.callMethodAsync id p m args := by
  have hmethod : p.method name = .ok m := by rw [Proxy.method, hm]
  rw [callRemote, hmethod]

/-- So is one that does not wait, and it is submitted as such. -/
theorem submissions_callRemote {id : Nat} {p : Proxy} (hp : w.proxies.get? id = some p)
    {name : String} {args : List Argument} {number : Nat}
    (h : (w.callRemote id p name args).2 = .ok number) :
    ∃ m a, p.interface.method? name = some m ∧
      (w.callRemote id p name args).1 = w.act (.callAsync id m args) ∧
      submissions w (.callAsync id m args) = [a] ∧ a.key = (id, number) ∧ a.call.method = m := by
  cases hm : p.interface.method? name with
  | none =>
    have hmethod : p.method name = .error (.unknownMember name) := by rw [Proxy.method, hm]
    rw [callRemote, hmethod] at h
    cases h
  | some m =>
    rw [callRemote_eq hm] at h ⊢
    rcases submissions_callAsync hp m args with ⟨e, -, hcall, -⟩ | ⟨c, -, hcall, hone⟩
    · rw [hcall] at h
      cases h
    · rw [hcall] at h
      cases h
      refine ⟨m, _, rfl, ?_, hone, rfl, rfl⟩
      simp only [act, withProxy, hp, Option.elim_some]

/-- What is submitted is the call of a move. -/
theorem submitted_of_mem {ms : List Move} {w : World} {a : Submission}
    (ha : a ∈ observe submissions w ms) :
    ∃ before args after, ms = before ++ .callAsync a.proxy a.call.method args :: after := by
  obtain ⟨before, m, after, rfl, hm⟩ := mem_observe ha
  obtain ⟨id, p, method, args, c, rfl, -, -, -, hone⟩ := submitting (List.ne_nil_of_mem hm)
  rw [hone] at hm
  cases List.mem_singleton.mp hm
  exact ⟨before, args, after, rfl⟩

/-- What a completion is given is what it is given by the settlement of an accepted call. -/
theorem Ledger.settled_of_told {A : List Submission} {C : List Settlement} (h : w.Ledger A C)
    {e : Event} (he : e ∈ w.journal) (htold : e.isTold = true) :
    ∃ a ∈ A, ∃ s ∈ C, s.Settles a ∧ e ∈ a.call.tells s.outcome := by
  have hmem : e ∈ w.told := List.mem_filter.mpr ⟨he, htold⟩
  rw [h.told] at hmem
  obtain ⟨s, hs, he⟩ := List.mem_flatMap.mp hmem
  obtain ⟨a, ha, hsettles⟩ := h.own s hs
  rw [Settlement.tells, hsettles.call] at he
  exact ⟨a, ha, s, hs, hsettles, he⟩

theorem of_replied_mem_tells {c : PendingCall} {o : Except TransportError Container}
    {handler : String} {result : Except CallError (List Value)}
    (h : .replied handler result ∈ c.tells o) :
    c.completion = .reply handler ∧ c.method.Reads o result := by
  unfold PendingCall.tells at h
  split at h <;> rename_i hc
  · cases List.mem_singleton.mp h
    exact ⟨hc, reads_readReply c.method o⟩
  · cases List.mem_singleton.mp h
  · cases h

theorem of_finished_mem_tells {c : PendingCall} {o : Except TransportError Container}
    {handler : String} {r : AsyncResult} (h : .finished handler r ∈ c.tells o) :
    c.completion = .finish handler ∧ r.method = c.method ∧ r.reply = o := by
  unfold PendingCall.tells at h
  split at h <;> rename_i hc
  · cases List.mem_singleton.mp h
  · cases List.mem_singleton.mp h
    exact ⟨hc, rfl, rfl⟩
  · cases h

/-! ## 4. Both sides -/

/-- What the two sides of calls get in the run `ms`. -/
structure TypeSafe (ms : List Move) : Prop where
  /-- A handler that has run was given arguments as the object's interface declares them. -/
  handled : ∀ h ∈ (empty.run ms).handlings, h.Typed (empty.run ms)
  /-- A call that has come over a connection with other arguments is refused, -/
  polled : ∀ t object i member body,
    (empty.run ms).tasks.get? t = some (.handle object i member body) →
    ∃ o, (empty.run ms).handlers? object = some o ∧
      (empty.run ms).Checks ((empty.run ms).act (.poll t)) o i member body
  /-- and so is one without a connection. -/
  called : ∀ object o sender path member body, (empty.run ms).handlers? object = some o →
    (empty.run ms).Checks ((empty.run ms).act (.call object sender path member body)) o
      (empty.run ms).invocations.size member body
  /-- A caller that waits reads the outcome of its request as the method declares, unless its
  arguments are refused before. -/
  waited : ∀ p m args result, ((empty.run ms).callMethodSync p m args).2 = some result →
    (∃ e, prepare m .sync p.convention args = .error e ∧ result = .error e) ∨
      ∃ c outcome, prepare m .sync p.convention args = .ok c ∧
        ((empty.run ms).await (callRequest p m c .answer)).2 = some outcome ∧
        m.Reads outcome result
  /-- If it gets values, they are as the proxy's interface declares them. -/
  named : ∀ p name args vs, ((empty.run ms).callSync p name args).2 = some (.ok vs) →
    ∃ m, p.interface.method? name = some m ∧ TypedAs m.output vs
  /-- What a reply handler has been given is the outcome of a call that was given this handler, read
  as the method declares, -/
  replied : ∀ handler result, .replied handler result ∈ (empty.run ms).journal →
    ∃ a ∈ observe submissions empty ms, ∃ s ∈ observe settlements empty ms, s.Settles a ∧
      a.call.completion = .reply handler ∧ a.call.method.Reads s.outcome result
  /-- and so is what is read later from what a finish handler has been given. -/
  finished : ∀ handler r, .finished handler r ∈ (empty.run ms).journal →
    ∃ a ∈ observe submissions empty ms, ∃ s ∈ observe settlements empty ms, s.Settles a ∧
      a.call.completion = .finish handler ∧ r.method = a.call.method ∧
      a.call.method.Reads s.outcome r.finish ∧
      ∀ p member vs, Proxy.finish p member r = .ok vs → TypedAs a.call.method.output vs
  /-- The method of such a call is the one that it was submitted for, -/
  submitted : ∀ a ∈ observe submissions empty ms,
    ∃ before args after, ms = before ++ .callAsync a.proxy a.call.method args :: after
  /-- and in a call by name this is the one that the proxy's interface declares. -/
  declared : ∀ id p name args number, (empty.run ms).proxies.get? id = some p →
    ((empty.run ms).callRemote id p name args).2 = .ok number →
    ∃ m a, p.interface.method? name = some m ∧
      ((empty.run ms).callRemote id p name args).1 = (empty.run ms).act (.callAsync id m args) ∧
      submissions (empty.run ms) (.callAsync id m args) = [a] ∧ a.key = (id, number) ∧
      a.call.method = m

/-- **Values arrive as they are declared**, on both sides and in every run, whatever the interfaces
of the two sides, the handlers and the answers. -/
theorem type_safe (ms : List Move) : TypeSafe ms := by
  have hs : (empty.run ms).Sound := sound_empty.run ms
  have hledger : (empty.run ms).Ledger (observe submissions empty ms)
      (observe settlements empty ms) := by
    simpa using ledger_run ms orderly_empty ledger_empty
  constructor
  · exact handledTyped_run ms
  · intro t object i member body ht
    obtain ⟨o, ho, hd⟩ := dispatched_poll hs.orderly hs.owing ht
    exact ⟨o, ho, hd.checks⟩
  · intro object o sender path member body ho
    exact (dispatched_call hs.orderly ho sender path member body).checks
  · intro p m args result h
    exact reads_callMethodSync h
  · intro p name args vs h
    exact typedAs_callSync h
  · intro handler result he
    obtain ⟨a, ha, s, hsC, hsettles, htells⟩ := hledger.settled_of_told he rfl
    exact ⟨a, ha, s, hsC, hsettles, of_replied_mem_tells htells⟩
  · intro handler r he
    obtain ⟨a, ha, s, hsC, hsettles, htells⟩ := hledger.settled_of_told he rfl
    obtain ⟨hcompletion, hmethod, hreply⟩ := of_finished_mem_tells htells
    refine ⟨a, ha, s, hsC, hsettles, hcompletion, hmethod, ?_, fun p member vs hvs => ?_⟩
    · rw [← hmethod, ← hreply]
      exact reads_readReply r.method r.reply
    · rw [← hmethod]
      exact typedAs_finish hvs
  · intro a ha
    exact submitted_of_mem ha
  · intro id p name args number hp h
    exact submissions_callRemote hp h

end World

end MessageBus

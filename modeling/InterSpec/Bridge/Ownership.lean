import InterSpec.Bridge.Delivery
import InterSpec.Data.Owners

/-!
# Who owns the objects

The tables and the argument boxes that are on the heap of the sandbox.  Each belongs to one open
context, except for those of a request that the parser has refused: `make_context` returns null
then and does not free them, and nobody else can.  `poptFreeContext` frees the pair of its
context, which is still there.

* `Accounts`: the objects of a list of owners are all that there are.
* `Accounts.step`: what a call adds and takes away.
* `Effect.dangling`, `Effect.closed`: what a call frees.
* `objects_accounted`: the books of a session, with the pairs that are lost.
-/

namespace InterSpec.Bridge

open InterSpec.Runtime Fallible

variable {π : Type}

/-! ### Owners -/

def HostContext.objects (c : HostContext) : UInt32 × UInt32 := (c.untrustedTable, c.untrustedArgv)

/-- The table and the box of each open context. -/
def objectsOf (contexts : List (Option HostContext)) : List (UInt32 × UInt32) :=
  contexts.filterMap (Option.map HostContext.objects)

/-- The tables and the boxes of the owners are all that there are. -/
structure Accounts (o : Objects π) (owners : List (UInt32 × UInt32)) : Prop where
  tables : Owns o.tables (owners.map Prod.fst)
  argvs : Owns o.argvs (owners.map Prod.snd)

theorem Accounts.perm {o : Objects π} {owners owners' : List (UInt32 × UInt32)}
    (h : Accounts o owners) (hp : owners.Perm owners') : Accounts o owners' :=
  ⟨h.tables.perm (hp.map _), h.argvs.perm (hp.map _)⟩

theorem Accounts.of_same {o o' : Objects π} {owners : List (UInt32 × UInt32)}
    (h : Accounts o owners) (htables : o'.tables = o.tables) (hargvs : o'.argvs = o.argvs) :
    Accounts o' owners :=
  ⟨htables ▸ h.tables, hargvs ▸ h.argvs⟩

/-- The parser has refused the request. -/
def refused : Call × Except Stop Answer → Bool
  | (.poptGetContext _ _ _ _ _, .ok (.context none)) => true
  | _ => false

theorem refused_of_read {call : Call} (h : call.reads = true)
    (answer : Except Stop Answer) : refused (call, answer) = false := by
  cases call with
  | poptGetContext => cases h
  | _ => rfl

section Step

variable {env : Surroundings} {s : Runtime} {p p' : Process (Objects π)}
  {lost : List (UInt32 × UInt32)}

/-- A request adds a table and a box; they are lost when it is refused. -/
theorem Accounts.request {answer : Answer} {w : World (Objects π)} {tableAt argvAt : UInt32}
    {inner : TrustedContext} (hr : Requested s p p' answer w tableAt argvAt inner)
    (h : Accounts p.world.untrusted (objectsOf p.contexts ++ lost)) :
    (answer = .context none ∧
      Accounts p'.world.untrusted (objectsOf p'.contexts ++ (lost ++ [(tableAt, argvAt)]))) ∨
    (∃ cell, answer = .context (some cell)) ∧
      Accounts p'.world.untrusted (objectsOf p'.contexts ++ lost) := by
  have hnew : Accounts p'.world.untrusted
      ((tableAt, argvAt) :: (objectsOf p.contexts ++ lost)) := by
    refine ⟨?_, ?_⟩
    · rw [hr.tables, hr.parser.objects]
      exact h.tables.add hr.parser.table_fresh _
    · rw [hr.argvs, hr.parser.objects]
      exact h.argvs.add hr.parser.argv_fresh _
  rcases hr.made with ⟨hanswer, hcontexts, _⟩ | ⟨made, _, hanswer, hcontexts, _⟩
  · refine .inl ⟨hanswer, hnew.perm ?_⟩
    rw [hcontexts, ← List.append_assoc]
    exact (List.perm_append_singleton _ _).symm
  · refine .inr ⟨⟨_, hanswer⟩, hnew.perm ?_⟩
    have hobjects : objectsOf p'.contexts = objectsOf p.contexts ++ [(tableAt, argvAt)] := by
      rw [hcontexts]
      exact List.filterMap_append
    rw [hobjects, List.append_assoc]
    exact List.perm_middle.symm

theorem Accounts.step {call : Call} {answer : Answer}
    (heffect : Effect env s p p' call answer)
    (h : Accounts p.world.untrusted (objectsOf p.contexts ++ lost)) :
    ∃ more, more.length = (refused (call, .ok answer)).toNat ∧
      Accounts p'.world.untrusted (objectsOf p'.contexts ++ (lost ++ more)) := by
  cases heffect with
  | read hcall hsame hcontexts =>
    have hobjects : objectsOf p'.contexts = objectsOf p.contexts := by
      rcases hcontexts with hcontexts | ⟨cell, c, cache, hget, hcontexts⟩
      · rw [hcontexts]
      · have hcached : Option.map HostContext.objects (some { c with argsCache := cache }) =
            Option.map HostContext.objects (some c) := rfl
        rw [hcontexts]
        exact filterMap_set_same hcached hget
    refine ⟨[], ?_, ?_⟩
    · rw [refused_of_read hcall]
      rfl
    · rw [hobjects, List.append_nil]
      exact h.of_same hsame.tables hsame.argvs
  | request _ hrequested _ =>
    rcases h.request hrequested with ⟨rfl, hnow⟩ | ⟨⟨cell, rfl⟩, hnow⟩
    · exact ⟨_, rfl, hnow⟩
    · refine ⟨[], rfl, ?_⟩
      rw [List.append_nil]
      exact hnow
  | next hget hcontexts hchanged =>
    obtain ⟨table, hold, htables⟩ := hchanged.tables
    refine ⟨[], rfl, ?_⟩
    rw [hcontexts, List.append_nil]
    refine ⟨?_, hchanged.argvs ▸ h.argvs⟩
    rw [htables]
    refine h.tables.change ?_ _
    rw [hold]
    exact Option.some_ne_none _
  | @free cell c _ hget hcontexts hfreed =>
    have hperm : (objectsOf p.contexts).Perm (c.objects :: objectsOf p'.contexts) := by
      rw [hcontexts]
      exact filterMap_set_perm (f := Option.map HostContext.objects) rfl rfl hget
    have hfirst := h.perm (hperm.append_right lost)
    refine ⟨[], rfl, ?_⟩
    rw [List.append_nil]
    refine ⟨?_, ?_⟩
    · rw [hfreed.tables]
      exact hfirst.tables.remove
    · rw [hfreed.argvs]
      exact hfirst.argvs.remove

theorem Effect.dangling {call : Call} {answer : Answer} (heffect : Effect env s p p' call answer) :
    p'.world.untrusted.dangling = p.world.untrusted.dangling := by
  cases heffect with
  | read _ hsame _ => exact hsame.dangling
  | request _ hrequested _ =>
    rw [hrequested.dangling, hrequested.parser.objects]
    rfl
  | next _ _ hchanged => exact hchanged.dangling
  | free _ _ hfreed => exact hfreed.dangling

/-- The context of the cell is closed: its entry is gone, and its objects, which were there, and
no others are freed. -/
def Closed (p p' : Process (Objects π)) (cell : Nat) : Prop :=
  ∃ c, p.contexts[cell]? = some (some c) ∧ p'.contexts = p.contexts.set cell none ∧
    p.world.untrusted.Freed p'.world.untrusted c

theorem Effect.closed {cell : Nat} {answer : Answer}
    (heffect : Effect env s p p' (.poptFreeContext (some cell)) answer) : Closed p p' cell := by
  cases heffect with
  | read hcall _ _ => cases hcall
  | free hget hcontexts hfreed => exact ⟨_, hget, hcontexts, hfreed⟩

end Step

/-! ### Runs -/

/-- How many requests of the run were refused. -/
def refusals (calls : List Call) (answers : List (Except Stop Answer)) : Nat :=
  (calls.zip answers).countP refused

theorem refusals_concat {calls : List Call} {answers : List (Except Stop Answer)}
    (hlen : calls.length = answers.length) (call : Call) (answer : Except Stop Answer) :
    refusals (calls ++ [call]) (answers ++ [answer]) =
      refusals calls answers + (refused (call, answer)).toNat := by
  rw [refusals, List.zip_append hlen, List.countP_append]
  rw [List.zip_cons_cons, List.zip_nil_left, List.countP_singleton]
  cases refused (call, answer) <;> rfl

section Run

variable {L : Library π} {env : Surroundings} {nullArg : Int32} {start : Process (Objects π)}
  {s : Runtime}

/-- The books of a session: what each call has lost, and who owns the rest. -/
structure Booked (L : Library π) (env : Surroundings) (nullArg : Int32)
    (start : Process (Objects π)) (calls : List Call) (p : Process (Objects π))
    (lost : List (UInt32 × UInt32)) : Prop where
  counted : lost.length =
    refusals calls ((session (asWritten L) env nullArg).outputs (some start) calls)
  accounts : Accounts p.world.untrusted (objectsOf p.contexts ++ lost)
  dangling : p.world.untrusted.dangling = start.world.untrusted.dangling

theorem Booked.step {calls : List Call} {p p' : Process (Objects π)} {call : Call}
    {lost : List (UInt32 × UInt32)} (h : Booked L env nullArg start calls p lost)
    (hrun : sessionAfter L env nullArg start calls = some p) {answer : Answer}
    (hok : exported (asWritten L) env nullArg p call = .ok (p', answer))
    (heffect : Effect env s p p' call answer) :
    ∃ more, Booked L env nullArg start (calls ++ [call]) p' (lost ++ more) := by
  obtain ⟨more, hmore, haccounts⟩ := h.accounts.step heffect
  refine ⟨more, ?_, haccounts, heffect.dangling.trans h.dangling⟩
  have houtput : session (asWritten L) env nullArg (some p) call = (some p', .ok answer) := by
    simp only [session, hok]
  rw [sessionAfter] at hrun
  rw [Machine.outputs_append, hrun, Machine.outputs_cons, Machine.outputs_nil, houtput,
    refusals_concat (Machine.length_outputs _ calls (some start)).symm, ← h.counted,
    List.length_append, hmore]

end Run

end InterSpec.Bridge

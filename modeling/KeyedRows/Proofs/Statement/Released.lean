/-
# Streams are released

A store counts the streams that it hands out when they are closed. What holds a
stream is a cursor, a discovery or a grouping under way, each for its own time,
and each lets go of it in its own way. Over all of them one sum stays the same:
the streams that were closed and those that open cursors hold are as many as the
calls that were answered with a stream (`Balanced`). No statement breaks it,
whether it is answered or fails (`settles_select`, `settles_distinct`,
`settles_discover`), nor does any call of a cursor (`balanced_of_call`).

Key definitions: `opened`, `Cursor.held`, `Balanced`, `Settles`, `Session`.
Key theorem: **`streams_released`**.
-/
import KeyedRows.Proofs.Cursor.Terminal
import KeyedRows.Proofs.Store.Client
import KeyedRows.Statement.Distinct
import KeyedRows.Statement.Select

namespace KeyedRows

open CursorM CursorCall

/-! ### What is counted -/

/-- The calls that are answered with a stream of the store. -/
def Call.opens : Call → Bool
  | .scan _ => true
  | .query _ => true
  | .queryAggregate _ _ => true
  | _ => false

/-- How many calls of a log were answered with a stream. -/
def opened (log : List LoggedCall) : Nat := log.countP fun k => k.answered && k.call.opens

/-- One for a stream that the store counts and that is not closed. -/
def RecordStream.held (s : RecordStream) : Nat := if s.counted && s.closings == 0 then 1 else 0

/-- Since a start, the streams that were closed and so many that are held are the
streams that were opened. -/
structure Balanced (start : Client) (held : Nat) (cl : Client) : Prop where
  inMemory : ∃ m, cl.store = .memory m
  grown : start.log <+: cl.log
  sum : cl.closedStreams + held + opened start.log = start.closedStreams + opened cl.log

/-- What finds so many streams held in its own hand lets go of them, but for those
that it holds in its result; if it fails it lets go of all. -/
def Settles {α : Type} (start : Client) (before : Nat) (op : ClientM α) (held : α → Nat) : Prop :=
  ∀ others cl, Balanced start (others + before) cl →
    match op cl with
    | .ok a cl' => Balanced start (others + held a) cl'
    | .error _ cl' => Balanced start others cl'

variable {start cl : Client} {α β : Type} {n : Nat}

theorem settles_pure {held : α → Nat} {a : α} (h : held a = n) :
    Settles start n (pure a) held := by
  subst h
  exact fun _ _ hcl => hcl

theorem settles_throw {held : α → Nat} (e : Error) :
    Settles start 0 (throw e : ClientM α) held := fun _ _ h => h

theorem settles_ofExcept : ∀ x : Except Error α,
    Settles start 0 (ofExcept x : ClientM α) fun _ => 0
  | .ok _ => settles_pure rfl
  | .error e => settles_throw e

theorem Settles.bind {op : ClientM α} {f : α → ClientM β} {held : α → Nat} {held' : β → Nat}
    (h : Settles start n op held) (hf : ∀ a, Settles start (held a) (f a) held') :
    Settles start n (op >>= f) held' := by
  intro others cl hcl
  have hop := h others cl hcl
  simp only [Bind.bind, EStateM.bind]
  cases hrun : op cl with
  | ok a cl' =>
    rw [hrun] at hop
    exact hf a others cl' hop
  | error e cl' =>
    rw [hrun] at hop
    exact hop

/-- A result that is only looked at differently holds as much. -/
theorem Settles.map {op : ClientM α} {f : α → β} {held : α → Nat} {held' : β → Nat}
    (h : Settles start n op held) (hf : ∀ a, held' (f a) = held a) :
    Settles start n (f <$> op) held' := by
  have hpure (a : α) : Settles start (held a) (pure (f a) : ClientM β) held' :=
    settles_pure (hf a)
  exact h.bind hpure

/-! ### Calls of the client -/

theorem opened_append (log log' : List LoggedCall) :
    opened (log ++ log') = opened log + opened log' := List.countP_append

/-- A call that is answered with a stream opens it, any other call opens none. -/
theorem settles_call (k : Call) :
    Settles start 0 (Client.call k) fun _ => if k.opens then 1 else 0 := by
  intro others cl h
  obtain ⟨⟨m, hm⟩, hgrown, hsum⟩ := h
  have hlog (answered : Bool) : start.log <+: cl.log ++ [LoggedCall.mk k answered] :=
    hgrown.trans (List.prefix_append ..)
  unfold Client.call
  rcases hstrike : strike k.kind cl.faults with ⟨_ | message, faults⟩
  · simp only [hm, MemoryStore.store_answer, MemoryStore.store_after]
    refine ⟨⟨_, rfl⟩, hlog true, ?_⟩
    have hopened : opened [LoggedCall.mk k true] = if k.opens then 1 else 0 := by
      simp [opened, List.countP_singleton]
    simp only [Client.record, opened_append, hopened]
    omega
  · simp only
    refine ⟨⟨m, hm⟩, hlog false, ?_⟩
    have hopened : opened [LoggedCall.mk k false] = 0 := rfl
    simp only [Client.record, opened_append, hopened]
    omega

/-- A call without a stream in its answer. -/
theorem settles_of_not_opens {k : Call} (h : k.opens = false) :
    Settles start 0 (Client.call k) fun _ => 0 := by
  have hcall : Settles start 0 (Client.call k) fun _ => if k.opens then 1 else 0 := settles_call k
  rwa [h] at hcall

theorem settles_deliver {k : Call} (h : k.opens = true) (records : k.Result → List Record) :
    Settles start 0 ((fun r => Client.deliver (records r)) <$> Client.call k)
      RecordStream.held := by
  refine (settles_call k).map fun r => ?_
  rw [h]
  rfl

theorem settles_scan (home : SetAddress) :
    Settles start 0 (Client.scan home) RecordStream.held :=
  settles_deliver (k := .scan home) rfl id

theorem settles_query (q : IndexQuery) : Settles start 0 (Client.query q) RecordStream.held :=
  settles_deliver (k := .query q) rfl id

theorem settles_queryAggregate (q : IndexQuery) (a : Aggregation) :
    Settles start 0 (Client.queryAggregate q a) RecordStream.held :=
  settles_deliver (k := .queryAggregate q a) rfl id

/-- Closing a held stream counts it. -/
theorem Balanced.noteClosing {s : RecordStream} (h : Balanced start (n + s.held) cl) :
    Balanced start n (cl.noteClosing s) := by
  obtain ⟨hm, hgrown, hsum⟩ := h
  unfold RecordStream.held at hsum
  unfold Client.noteClosing
  split_ifs at hsum ⊢
  · exact ⟨hm, hgrown, by simp only; omega⟩
  · exact ⟨hm, hgrown, by omega⟩

theorem settles_closeStream (s : RecordStream) :
    Settles start s.held (Client.closeStream s) fun _ => 0 := fun _ _ h => h.noteClosing

/-! ### Discovery -/

/-- **A sample lets go of its scan**, whether it is cut short, ends or fails. -/
theorem settles_sample (limit : Nat) (table : SetAddress) :
    Settles start 0 (Client.sample limit table) fun _ => 0 := by
  refine (settles_scan table).bind fun stream => (settles_closeStream stream).bind fun _ => ?_
  split
  · exact settles_pure rfl
  · exact settles_throw _

theorem settles_gather {sample : SetAddress → ClientM (List Bins)}
    (h : ∀ table, Settles start 0 (sample table) fun _ => 0) :
    ∀ (columns : List Column) (samples : Discovery.Samples),
      Settles start 0 (Discovery.gather sample columns samples) fun _ => 0
  | [], samples => settles_pure rfl
  | c :: cs, samples => by
    unfold Discovery.gather
    cases samples.lookup (Discovery.tableOf c) with
    | some _ => exact settles_gather h cs samples
    | none => exact (h _).bind fun bins => settles_gather h cs _

/-- **Discovery holds no stream when it is over.** -/
theorem settles_discover (settings : Settings) (columns : List Column) :
    Settles start 0 (Client.discover settings columns) fun _ => 0 := by
  refine (settles_gather (settles_sample _) _ _).bind fun samples => ?_
  split_ifs <;> exact settles_pure rfl

/-! ### Statements -/

theorem held_restrict (s : RecordStream) (filters : List Filter) :
    (s.restrict filters).held = s.held := rfl

theorem held_drain (s : RecordStream) : s.drain.2.held = s.held := by
  suffices h : ∀ pending, (RecordStream.drain.go s pending).2.held = s.held from h _
  intro pending
  induction pending with
  | nil => rfl
  | cons event rest ih =>
    cases event with
    | error e => rfl
    | ok r =>
      rw [RecordStream.drain.go]
      split_ifs
      · rcases hrest : RecordStream.drain.go s rest with ⟨_ | rs, after⟩ <;>
          rw [hrest] at ih <;> exact ih
      · exact ih

theorem settles_execute (p : QueryPlan) : Settles start 0 p.execute RecordStream.held := by
  unfold QueryPlan.execute
  cases p.home? with
  | none => exact settles_throw _
  | some home =>
    have hfetch : Settles start 0 (p.fetch home) RecordStream.held := by
      unfold QueryPlan.fetch
      cases p.access with
      | point key =>
        -- a looked-up record is in no stream of the store
        exact (settles_of_not_opens (k := .get key) rfl).bind fun found =>
          settles_pure rfl
      | pushed f => exact settles_query _
      | fullScan => exact settles_scan home
    exact hfetch.map fun s => held_restrict s p.residual

theorem settles_groups (d : Distinct) : Settles start 0 d.groups RecordStream.held := by
  have hpoint : Settles start 0 d.groupPoint RecordStream.held := by
    refine (settles_execute d.plan).bind fun s => ?_
    have hclose : Settles start s.drain.2.held (Client.closeStream s.drain.2) fun _ => 0 :=
      settles_closeStream s.drain.2
    rw [held_drain] at hclose
    refine hclose.bind fun _ => (settles_ofExcept s.drain.1).bind fun records => ?_
    exact settles_pure rfl
  unfold Distinct.groups
  split
  · exact hpoint
  · exact settles_queryAggregate _ _
  · exact settles_throw _

/-- A cursor that is opened holds the stream of its source. -/
theorem settles_openCursor (settings : Settings) (discovers : Bool) (home : SetAddress)
    (columns : List Column) {source : ClientM RecordStream}
    (h : Settles start 0 source RecordStream.held) :
    Settles start 0 (Statement.openCursor settings discovers home columns source)
      fun c => c.stream.held := by
  unfold Statement.openCursor
  split_ifs
  · exact (settles_discover settings columns).bind fun resolved => h.map fun _ => rfl
  · exact h.map fun _ => rfl

/-- One for a stream that the store counts, and that the cursor has not closed. -/
def BaseCursor.held : BaseCursor → Nat
  | .record c => c.stream.held
  | .static _ => 0

/-- What the cursor under the filters holds. -/
def Cursor.held (c : Cursor) : Nat := c.base.held

/-- **A select hands the stream that it opens to its cursor.** -/
theorem settles_select (q : Select) : Settles start 0 q.run Cursor.held := by
  unfold Select.run
  cases q.plan.home? with
  | none => exact settles_pure rfl
  | some home =>
    exact (settles_openCursor _ _ home _ (settles_execute q.plan)).map fun _ => rfl

/-- **So does a grouping**, with a test of its groups or without. -/
theorem settles_distinct (d : Distinct) : Settles start 0 d.run Cursor.held := by
  have hrows : Settles start 0 d.openRows fun c => c.stream.held :=
    (settles_ofExcept d.check).bind fun home =>
      settles_openCursor _ _ home _ (settles_groups d)
  refine hrows.bind fun c => ?_
  cases d.having with
  | none => exact settles_pure rfl
  | some test => exact settles_pure rfl

/-! ### Cursors -/

theorem Balanced.leaves {op : ClientM α} (h : Balanced start n cl)
    (hop : Settles start 0 op fun _ => 0) : Balanced start n (leaves op cl) := by
  have hcl := hop n cl h
  unfold KeyedRows.leaves
  cases hrun : op cl <;> rw [hrun] at hcl <;> exact hcl

/-- **No call upsets the balance**: the closing lets go of the stream, and a
record that is asked for comes in none. -/
theorem balanced_of_call {t : BaseCursor × Client} (h : Balanced start (n + t.1.held) t.2)
    (k : CursorCall) : Balanced start (n + (k.after t).1.held) (k.after t).2 := by
  obtain ⟨c | c, cl⟩ := t
  · rw [BaseCursor.carries_record.after k (c, cl)]
    by_cases hclose : k = .close
    · subst hclose
      rw [RecordCursor.close_after_eq]
      split_ifs
      · exact h
      · have hreleased : c.stream.release.held = 0 := by simp [RecordStream.held, RecordStream.release]
        simp only [BaseCursor.held, hreleased]
        exact h.noteClosing
    · obtain ⟨hstirred, hasks⟩ := RecordCursor.stirred_of_call hclose (c, cl)
      have hheld : (k.after (c, cl)).1.stream.held = c.stream.held := by
        simp only [RecordStream.held, hstirred.counted, hstirred.closings]
      simp only [BaseCursor.held, hheld]
      rcases hasks with hsame | ⟨home, hasked⟩
      · rw [hsame]
        exact h
      · rw [hasked]
        exact h.leaves (settles_of_not_opens (k := .anyRecord home) rfl)
  · rw [BaseCursor.carries_static.after k (c, cl), StaticCursor.client_of_call k (c, cl)]
    exact h

/-- A closed cursor holds no stream. -/
def BaseCursor.Sealed (c : BaseCursor) : Prop := (RowCursor.state c).closed = true → c.held = 0

theorem BaseCursor.sealed_of_call {t : BaseCursor × Client} (h : t.1.Sealed) (k : CursorCall) :
    (k.after t).1.Sealed := by
  obtain ⟨c | c, cl⟩ := t
  · rw [BaseCursor.carries_record.after k (c, cl)]
    by_cases hclose : k = .close
    · subst hclose
      rw [RecordCursor.close_after_eq]
      split_ifs
      · exact h
      · exact fun _ => by simp [BaseCursor.held, RecordStream.held, RecordStream.release]
    · have hstirred := (RecordCursor.stirred_of_call hclose (c, cl)).1
      intro hclosed
      have hheld : c.stream.held = 0 := h (hstirred.closed.symm.trans hclosed)
      simpa only [BaseCursor.held, RecordStream.held, hstirred.counted, hstirred.closings]
        using hheld
  · rw [BaseCursor.carries_static.after k (c, cl)]
    exact fun _ => rfl

namespace Cursor

/-- A closed cursor has closed the one under its filters, which holds no stream then. -/
structure Sealed (c : Cursor) : Prop where
  tight : c.Tight
  base : c.base.Sealed

theorem Sealed.after {s : Cursor × Client} (h : s.1.Sealed) (k : CursorCall) :
    (k.after s).1.Sealed where
  tight := tight_of_call h.tight k
  base := bottom_keeps (P := fun t => t.1.Sealed) (fun _ k ht => BaseCursor.sealed_of_call ht k)
    h.base k

theorem Sealed.held {c : Cursor} (h : c.Sealed) (hclosed : (RowCursor.state c).closed = true) :
    c.held = 0 := h.base (h.tight.base hclosed)

/-- What is given up lets go of what it holds. -/
theorem balanced_of_drop {s : Cursor × Client} (hs : s.1.Sealed)
    (h : Balanced start (n + s.1.held) s.2) : Balanced start n (leaves drop s).2 := by
  have hbottom : (leaves drop s).2 = (leaves BaseCursor.drop (bottom s)).2 :=
    congrArg Prod.snd (bottom_drop s)
  rw [hbottom]
  have hsealed : (bottom s).1.Sealed := hs.base
  have hbalanced : Balanced start (n + (bottom s).1.held) (bottom s).2 := h
  generalize bottom s = t at hsealed hbalanced
  obtain ⟨c | c, cl⟩ := t
  · rw [BaseCursor.leaves_drop_record]
    have hclosed := LawfulCursor.closed_of_close (γ := BaseCursor) (.record c, cl)
    have hnone := BaseCursor.sealed_of_call hsealed .close hclosed
    have hafter := balanced_of_call hbalanced .close
    rwa [hnone] at hafter
  · exact hbalanced

end Cursor

/-! ### New cursors -/

/-- What something gives, if it gives a result, is of this kind. -/
def Gives {α : Type} (P : α → Prop) (op : ClientM α) : Prop :=
  ∀ cl a cl', op cl = .ok a cl' → P a

theorem gives_pure {P : α → Prop} {a : α} (h : P a) : Gives P (pure a) := by
  intro cl b cl' hb
  cases hb
  exact h

theorem Gives.bind {P : α → Prop} {Q : β → Prop} {op : ClientM α} {f : α → ClientM β}
    (h : Gives P op) (hf : ∀ a, P a → Gives Q (f a)) : Gives Q (op >>= f) := by
  intro cl b cl' hb
  simp only [Bind.bind, EStateM.bind] at hb
  cases hrun : op cl with
  | ok a cl'' =>
    rw [hrun] at hb
    exact hf a (h cl a cl'' hrun) cl'' b cl' hb
  | error e cl'' =>
    rw [hrun] at hb
    cases hb

/-- Anything gives something. -/
theorem gives_any (op : ClientM α) : Gives (fun _ => True) op := fun _ _ _ _ => trivial

theorem gives_openCursor (settings : Settings) (discovers : Bool) (home : SetAddress)
    (columns : List Column) (source : ClientM RecordStream) :
    Gives (fun c => c.state = {})
      (Statement.openCursor settings discovers home columns source) := by
  unfold Statement.openCursor
  split_ifs
  · exact (gives_any _).bind fun _ _ => (gives_any source).bind fun _ _ => gives_pure rfl
  · exact (gives_any source).bind fun _ _ => gives_pure rfl

theorem Cursor.sealed_of_new {c : RecordCursor} (h : c.state = {}) : (ofRecord c).Sealed := by
  have hopen : (RowCursor.state (BaseCursor.record c)).closed = false := by
    change c.state.closed = false
    rw [h]
  refine ⟨trivial, fun hclosed => ?_⟩
  rw [show (RowCursor.state (ofRecord c).base).closed = false from hopen] at hclosed
  cases hclosed

/-- A new filter is open, so that nothing need be closed under it. -/
theorem Cursor.Sealed.filtered {c : Cursor} (h : c.Sealed) (test : RowTest) :
    (c.filtered test).Sealed := by
  refine ⟨⟨fun hclosed => ?_, h.tight⟩, h.base⟩
  cases hclosed

theorem gives_select (q : Select) : Gives Cursor.Sealed q.run := by
  unfold Select.run
  cases q.plan.home? with
  | none => exact gives_pure ⟨trivial, fun _ => rfl⟩
  | some home =>
    exact (gives_openCursor _ _ home _ _).bind fun c hc => gives_pure (Cursor.sealed_of_new hc)

theorem gives_distinct (d : Distinct) : Gives Cursor.Sealed d.run := by
  have hrows : Gives (fun c => c.state = {}) d.openRows :=
    (gives_any _).bind fun home _ => gives_openCursor _ _ home _ _
  refine hrows.bind fun c hc => ?_
  have hsealed := Cursor.sealed_of_new hc
  cases d.having with
  | none => exact gives_pure hsealed
  | some test => exact gives_pure (hsealed.filtered test)

/-! ### Sessions -/

/-- A client, and the cursors that were not given up. -/
structure Session where
  client : Client
  cursors : List Cursor

/-- What is done in a session: a statement is run or types are discovered, or a
cursor is called or given up. -/
inductive SessionStep : Type 1 where
  | select (q : Select)
  | distinct (d : Distinct)
  | discover (settings : Settings) (columns : List Column)
  | call (i : Nat) (k : CursorCall)
  | drop (i : Nat)

namespace Session

/-- The session with the cursor of a statement, if the statement gave one. -/
def opening (s : Session) (statement : ClientM Cursor) : Session :=
  match statement s.client with
  | .ok c cl => ⟨cl, s.cursors ++ [c]⟩
  | .error _ cl => ⟨cl, s.cursors⟩

def step (s : Session) : SessionStep → Session
  | .select q => s.opening q.run
  | .distinct d => s.opening d.run
  | .discover settings columns => ⟨leaves (Client.discover settings columns) s.client, s.cursors⟩
  | .call i k =>
    match s.cursors[i]? with
    | none => s
    | some c => ⟨(k.after (c, s.client)).2, s.cursors.set i (k.after (c, s.client)).1⟩
  | .drop i =>
    match s.cursors[i]? with
    | none => s
    | some c => ⟨(leaves Cursor.drop (c, s.client)).2, s.cursors.eraseIdx i⟩

def run (s : Session) (steps : List SessionStep) : Session := steps.foldl step s

/-- How many streams the cursors of the session hold. -/
def held (s : Session) : Nat := (s.cursors.map Cursor.held).sum

/-- Every stream is accounted for: it was closed, or a cursor holds it that is
still open. -/
structure Sound (start : Client) (s : Session) : Prop where
  balanced : Balanced start s.held s.client
  sealed : ∀ c ∈ s.cursors, c.Sealed

theorem Sound.opening {s : Session} (h : s.Sound start) {statement : ClientM Cursor}
    (hsettles : Settles start 0 statement Cursor.held) (hnew : Gives Cursor.Sealed statement) :
    (s.opening statement).Sound start := by
  have hrun := hsettles s.held s.client h.balanced
  unfold Session.opening
  cases hstatement : statement s.client with
  | error e cl =>
    rw [hstatement] at hrun
    exact ⟨hrun, h.sealed⟩
  | ok c cl =>
    rw [hstatement] at hrun
    refine ⟨?_, fun d hd => ?_⟩
    · simpa [Session.held] using hrun
    · rcases List.mem_append.mp hd with hd | hd
      · exact h.sealed d hd
      · rw [List.mem_singleton.mp hd]
        exact hnew _ _ _ hstatement

/-- What all cursors hold is what one holds and what the others hold. -/
theorem held_eraseIdx {cursors : List Cursor} {i : Nat} {c : Cursor} (h : cursors[i]? = some c) :
    (cursors.map Cursor.held).sum = ((cursors.eraseIdx i).map Cursor.held).sum + c.held := by
  obtain ⟨hlt, rfl⟩ := List.getElem?_eq_some_iff.mp h
  have hsum := List.CommMonoid.add_sum_eraseIdx (l := cursors.map Cursor.held) (i := i)
    (by simpa using hlt)
  rw [List.getElem_map, List.eraseIdx_map] at hsum
  omega

theorem Sound.call {s : Session} (h : s.Sound start) {i : Nat} {c : Cursor}
    (hi : s.cursors[i]? = some c) (k : CursorCall) :
    Sound start ⟨(k.after (c, s.client)).2, s.cursors.set i (k.after (c, s.client)).1⟩ := by
  have hlt : i < s.cursors.length := (List.getElem?_eq_some_iff.mp hi).1
  have hc : c.Sealed := h.sealed c (List.mem_of_getElem? hi)
  refine ⟨?_, fun d hd => ?_⟩
  · have hbefore := h.balanced
    rw [Session.held, held_eraseIdx hi] at hbefore
    have hafter := Cursor.bottom_keeps (s := (c, s.client))
      (P := fun t => Balanced start (((s.cursors.eraseIdx i).map Cursor.held).sum + t.1.held) t.2)
      (fun _ k ht => balanced_of_call ht k) hbefore k
    have hset := List.getElem?_set_self (a := (k.after (c, s.client)).1) hlt
    rw [Session.held, held_eraseIdx hset, List.eraseIdx_set_eq]
    exact hafter
  · rcases List.mem_or_eq_of_mem_set hd with hd | rfl
    · exact h.sealed d hd
    · exact Cursor.Sealed.after (s := (c, s.client)) hc k

theorem Sound.drop {s : Session} (h : s.Sound start) {i : Nat} {c : Cursor}
    (hi : s.cursors[i]? = some c) :
    Sound start ⟨(leaves Cursor.drop (c, s.client)).2, s.cursors.eraseIdx i⟩ := by
  have hc : c.Sealed := h.sealed c (List.mem_of_getElem? hi)
  refine ⟨?_, fun d hd => h.sealed d (List.mem_of_mem_eraseIdx hd)⟩
  have hbefore := h.balanced
  rw [Session.held, held_eraseIdx hi] at hbefore
  exact Cursor.balanced_of_drop (s := (c, s.client)) hc hbefore

/-- **A step keeps account of every stream.** -/
theorem Sound.step {s : Session} (h : s.Sound start) (a : SessionStep) :
    (s.step a).Sound start := by
  cases a with
  | select q => exact h.opening (settles_select q) (gives_select q)
  | distinct d => exact h.opening (settles_distinct d) (gives_distinct d)
  | discover settings columns =>
    exact ⟨h.balanced.leaves (settles_discover settings columns), h.sealed⟩
  | call i k =>
    simp only [Session.step]
    cases hi : s.cursors[i]? with
    | none => exact h
    | some c => exact h.call hi k
  | drop i =>
    simp only [Session.step]
    cases hi : s.cursors[i]? with
    | none => exact h
    | some c => exact h.drop hi

theorem Sound.run {s : Session} (h : s.Sound start) (steps : List SessionStep) :
    (s.run steps).Sound start := by
  induction steps generalizing s with
  | nil => exact h
  | cons a steps ih => exact ih (h.step a)

/-- What the account says. -/
theorem Sound.accounts {s : Session} (h : s.Sound start) :
    ∃ calls, s.client.log = start.log ++ calls ∧
      s.client.closedStreams ≤ start.closedStreams + opened calls ∧
      s.client.closedStreams + s.held = start.closedStreams + opened calls ∧
      ((∀ c ∈ s.cursors, (RowCursor.state c).closed = true) →
        s.client.closedStreams = start.closedStreams + opened calls) := by
  obtain ⟨⟨-, ⟨calls, hcalls⟩, hsum⟩, hsealed⟩ := h
  rw [← hcalls, opened_append] at hsum
  refine ⟨calls, hcalls.symm, by omega, by omega, fun hclosed => ?_⟩
  have hnone : s.held = 0 := by
    refine List.sum_eq_zero fun h hh => ?_
    obtain ⟨c, hc, rfl⟩ := List.mem_map.mp hh
    exact (hsealed c hc).held (hclosed c hc)
  omega

end Session

/-- **Streams are released, each once.** Whatever statements and discoveries are run
over a store in memory, with any calls of the client failing, and however their
cursors are driven, closed and given up: the streams that were closed are never
more than the calls that were answered with a stream, they are short of these by
those that open cursors hold, and they are as many when every cursor is closed
or given up. -/
theorem streams_released (m : MemoryStore) (faults : List Fault) (log : List LoggedCall)
    (closed : Nat) (steps : List SessionStep) :
    ∃ calls,
      let start : Client := { store := .memory m, faults, log, closedStreams := closed }
      let ended := Session.run ⟨start, []⟩ steps
      ended.client.log = log ++ calls ∧
        ended.client.closedStreams ≤ closed + opened calls ∧
        ended.client.closedStreams + ended.held = closed + opened calls ∧
        ((∀ c ∈ ended.cursors, (RowCursor.state c).closed = true) →
          ended.client.closedStreams = closed + opened calls) := by
  have hnew (start : Client) (hstart : start.store = .memory m) :
      Session.Sound start ⟨start, []⟩ := ⟨⟨⟨m, hstart⟩, List.prefix_refl _, rfl⟩, nofun⟩
  exact ((hnew { store := .memory m, faults, log, closedStreams := closed } rfl).run steps).accounts

end KeyedRows

/-
# Round trips

A statement that discovers no types makes one call, and its cursor makes at most
one more: for a record of the set, where the cursor under its test is asked for
metadata that it cannot tell otherwise, by a call or by the test that the call runs
(`Exchange.samples`). No other call reaches the client (`Steady.step`). A test that only
looks runs while a row is current, so that only calls sample, and only those that ask
for metadata (`samples_iff_of_uniform`). Metadata that were told once are told again.

Key definitions: `RowStatement`, `OneCall`, `Exchange.samples`, `Steady`.
Key theorem: **`round_trips`**.
-/
import KeyedRows.Proofs.Cursor.Sampling
import KeyedRows.Proofs.Cursor.Stack
import KeyedRows.Proofs.Statement.Distinct

namespace KeyedRows

open CursorM CursorCall Client

/-! ### One call -/

/-- The source makes one call, which only reads. -/
def OneCall {α : Type} (P : α → Prop) (source : ClientM α) : Prop :=
  ∀ cl : Client, cl.Obliging → ∃ a k, Reading k ∧ source cl = .ok a (cl.served k) ∧ P a

section

variable {α β : Type}

theorem OneCall.map {P : α → Prop} {Q : β → Prop} {source : ClientM α} {f : α → β}
    (h : OneCall P source) (hf : ∀ a, P a → Q (f a)) : OneCall Q (f <$> source) := by
  intro cl hcl
  obtain ⟨a, k, hk, hrun, ha⟩ := h cl hcl
  exact ⟨f a, k, hk, by simp only [Functor.map, EStateM.map, hrun], hf a ha⟩

end

namespace Distinct

end Distinct

/-! ### Statements over a set -/

/-- A statement that gives rows. -/
inductive RowStatement where
  | select (q : Select)
  | distinct (d : Distinct)

namespace RowStatement

def run : RowStatement → ClientM Cursor
  | select q => q.run
  | distinct d => d.run

/-- Types are discovered before the rows are asked for. -/
def discovers : RowStatement → Bool
  | select q => q.discovers
  | distinct d => d.discovers

end RowStatement

/-- A new cursor over a stream, which may ask for any record of its set. -/
structure RecordCursor.Fresh (home : SetAddress) (c : RecordCursor) : Prop where
  state : c.state = {}
  current : c.current = none
  exhausted : c.exhausted = false
  fallback : c.fallback = .anyRecord home

/-- The call asks an open cursor for metadata that lack a record. -/
def Exchange.lacks (y : Exchange BaseCursor) : Prop :=
  y.call.asksMetadata = true ∧ ∃ c, y.before.1 = .record c ∧ c.state.closed = false ∧ c.Lacks

/-- The call, or a test that it runs, asks the open cursor under the filters for metadata
that lack a record. -/
def Exchange.samples (x : Exchange Cursor) : Prop := ∃ y ∈ Cursor.reaching x, y.lacks

/-- A record cursor that may ask for any record of its set. -/
def BaseCursor.MayAsk (home : SetAddress) (b : BaseCursor) : Prop :=
  ∃ c, b = .record c ∧ c.Settled ∧ c.fallback = .anyRecord home

theorem BaseCursor.MayAsk.after {home : SetAddress} {t : BaseCursor × Client}
    (h : t.1.MayAsk home) (k : CursorCall) : (k.after t).1.MayAsk home := by
  obtain ⟨b, cl⟩ := t
  obtain ⟨c, rfl, hsettled, hfallback⟩ := h
  rw [BaseCursor.carries_record.after k (c, cl)]
  refine ⟨_, rfl, hsettled.after k, ?_⟩
  by_cases hclose : k = .close
  · subst hclose
    rw [RecordCursor.close_after_eq]
    split_ifs <;> exact hfallback
  · exact (RecordCursor.stirred_of_call hclose (c, cl)).1.fallback home hfallback

/-- The base of a cursor keeps these metadata. -/
def BaseCursor.Told (m : ResultMetadata) (b : BaseCursor) : Prop :=
  ∃ c, b = .record c ∧ c.metadata = some m

theorem BaseCursor.Told.after {m : ResultMetadata} {t : BaseCursor × Client} (h : t.1.Told m)
    (k : CursorCall) : (k.after t).1.Told m := by
  obtain ⟨b, cl⟩ := t
  obtain ⟨c, rfl, hm⟩ := h
  rw [BaseCursor.carries_record.after k (c, cl)]
  refine ⟨_, rfl, ?_⟩
  by_cases hclose : k = .close
  · subst hclose
    rw [RecordCursor.close_after_eq]
    split_ifs <;> exact hm
  · exact (RecordCursor.stirred_of_call hclose (c, cl)).1.metadata m hm

/-- What keeps its metadata never lacks a record again. -/
theorem BaseCursor.Told.never_lacks {m : ResultMetadata} {t : BaseCursor × Client}
    (h : t.1.Told m) (ks : List CursorCall) : ∀ y ∈ exchanges t ks, ¬ y.lacks := by
  rintro y hy ⟨-, c, hc, -, hlacks⟩
  obtain ⟨-, hkept⟩ := exchanges_keep (I := fun u : BaseCursor × Client => u.1.Told m)
    (fun _ k hu (_ : True) => hu.after k) ks t h fun _ _ => trivial
  obtain ⟨c', hc', hm⟩ := (hkept y hy).1
  obtain rfl : c' = c := BaseCursor.record.inj (hc'.symm.trans hc)
  cases hlacks.unmade.symm.trans hm

/-- The cursor under the test of a statement over a set, whatever was called. -/
structure Steady (home : SetAddress) (t : BaseCursor × Client) : Prop where
  base : t.1.MayAsk home
  client : t.2.Obliging

/-- What a call costs: a record of the set where metadata lack one, and nothing
otherwise. -/
structure Costs (home : SetAddress) (y : Exchange BaseCursor) : Prop where
  steady : Steady home y.after
  asked : y.lacks → y.after.2.log = y.before.2.log ++ [LoggedCall.mk (.anyRecord home) true] ∧
    ∃ m, y.after.1.Told m
  spared : ¬ y.lacks → y.after.2.log = y.before.2.log

namespace Steady

variable {home : SetAddress} {t : BaseCursor × Client}

/-- A call that asks for no metadata asks for nothing. -/
theorem costs_of_spared (h : Steady home t) {k : CursorCall} (hlacks : ¬ (Exchange.mk t k).lacks)
    (hclient : (k.after t).2.Obliging) (hlog : (k.after t).2.log = t.2.log) :
    Costs home ⟨t, k⟩ :=
  ⟨⟨h.base.after k, hclient⟩, fun hx => absurd hx hlacks, fun _ => hlog⟩

theorem close_costs (h : Steady home t) : Costs home ⟨t, .close⟩ := by
  have hlacks : ¬ (Exchange.mk t .close).lacks := fun hx => by cases hx.1
  obtain ⟨b, cl⟩ := t
  have hclient : cl.Obliging := h.client
  obtain ⟨c, hc, -⟩ := h.base
  obtain rfl : b = .record c := hc
  have hafter := BaseCursor.carries_record.after .close (c, cl)
  rw [RecordCursor.close_after_eq] at hafter
  refine h.costs_of_spared hlacks ?_ ?_ <;> rw [hafter] <;> split_ifs
  · exact hclient
  · exact hclient.closing _
  · rfl
  · simp only [Client.noteClosing]
    split_ifs <;> rfl

theorem other_costs (h : Steady home t) {k : CursorCall} (hclose : k ≠ .close)
    (hasks : k.asksMetadata = false) : Costs home ⟨t, k⟩ := by
  have hlacks : ¬ (Exchange.mk t k).lacks := fun hx => by cases hasks.symm.trans hx.1
  obtain ⟨b, cl⟩ := t
  have hclient : cl.Obliging := h.client
  obtain ⟨c, hc, -⟩ := h.base
  obtain rfl : b = .record c := hc
  have hsame : (k.after (BaseCursor.record c, cl)).2 = cl := by
    rw [BaseCursor.carries_record.after k (c, cl)]
    exact (RecordCursor.still_of_call hclose hasks (c, cl)).sameClient
  refine h.costs_of_spared hlacks ?_ ?_
  · rwa [hsame]
  · rw [hsame]

/-- A closed cursor is asked in vain, and an open one asks the client if its
metadata lack a record. -/
theorem asks_costs (h : Steady home t) {k : CursorCall} (hasks : k.asksMetadata = true) :
    Costs home ⟨t, k⟩ := by
  obtain ⟨b, cl⟩ := t
  have hclient : cl.Obliging := h.client
  obtain ⟨c, hc, hsettled, hfallback⟩ := h.base
  obtain rfl : b = .record c := hc
  have hafter : k.after (BaseCursor.record c, cl) =
      (.record (CursorCall.metadata.after (c, cl)).1, (CursorCall.metadata.after (c, cl)).2) :=
    (RowCursor.asks_after hasks _).trans (BaseCursor.carries_record.after .metadata (c, cl))
  have hsamples : (Exchange.mk (BaseCursor.record c, cl) k).lacks ↔
      c.state.closed = false ∧ c.Lacks := by
    constructor
    · rintro ⟨-, c', hc', hstill⟩
      obtain rfl : c = c' := BaseCursor.record.inj hc'
      exact hstill
    · exact fun hstill => ⟨hasks, c, rfl, hstill⟩
  cases hclosed : c.state.closed with
  | true =>
    have hsame : CursorCall.metadata.after (c, cl) = (c, cl) :=
      after_error (LawfulCursor.refused (s := (c, cl)) (k := .metadata) hclosed rfl)
    rw [hsame] at hafter
    have hno : ¬ (Exchange.mk (BaseCursor.record c, cl) k).lacks := by
      rw [hsamples, hclosed]
      simp
    refine h.costs_of_spared hno ?_ ?_ <;> rw [hafter]
    exact hclient
  | false =>
    have hplaced : c.WellPlaced := hsettled.resolve_right (by rw [hclosed]; exact Bool.false_ne_true)
    rcases RecordCursor.metadata_costs hplaced hfallback hclient with
        ⟨hlacks, hasked, hmade⟩ | ⟨hno, hspared⟩
    · obtain ⟨m, hm⟩ := Option.isSome_iff_exists.mp hmade
      have hserved := congrArg Prod.snd hafter |>.trans hasked
      refine ⟨⟨h.base.after k, ?_⟩, fun _ => ⟨?_, m, ?_⟩,
        fun hnot => absurd (hsamples.mpr ⟨hclosed, hlacks⟩) hnot⟩
      · exact hserved ▸ hclient.served trivial
      · exact congrArg Client.log hserved
      · exact ⟨_, congrArg Prod.fst hafter, hm⟩
    · rw [hspared] at hafter
      refine h.costs_of_spared (fun hx => hno (hsamples.mp hx).2) ?_ ?_ <;> rw [hafter]
      exact hclient

/-- **A call asks the client if it asks for metadata that lack a record, and only
then**, and it leaves the cursor as it should be for the next call. -/
theorem step (h : Steady home t) (k : CursorCall) : Costs home ⟨t, k⟩ := by
  by_cases hclose : k = .close
  · subst hclose
    exact h.close_costs
  · cases hasks : k.asksMetadata with
    | false => exact h.other_costs hclose hasks
    | true => exact h.asks_costs hasks

/-- **A run asks the client once if one of its calls lacks a record**, and otherwise not
at all. -/
theorem run (calls : List CursorCall) (t : BaseCursor × Client) (h : Steady home t) :
    ((∃ y ∈ exchanges t calls, y.lacks) →
      (afterAll t calls).2.log = t.2.log ++ [LoggedCall.mk (.anyRecord home) true]) ∧
    ((¬ ∃ y ∈ exchanges t calls, y.lacks) → (afterAll t calls).2.log = t.2.log) := by
  induction calls generalizing t with
  | nil =>
    refine ⟨?_, fun _ => rfl⟩
    rintro ⟨y, hy, -⟩
    cases hy
  | cons k ks ih =>
    have hcosts := h.step k
    obtain ⟨hasked, hspared⟩ := ih (k.after t) hcosts.steady
    by_cases hk : (Exchange.mk t k).lacks
    · -- what was sampled for is kept, so that the other calls lack nothing
      obtain ⟨hlog, m, htold⟩ := hcosts.asked hk
      have hnone : ¬ ∃ y ∈ exchanges (k.after t) ks, y.lacks := by
        rintro ⟨y, hy, hlacks⟩
        exact htold.never_lacks ks y hy hlacks
      exact ⟨fun _ => (hspared hnone).trans hlog,
        fun hno => absurd ⟨_, List.mem_cons_self, hk⟩ hno⟩
    · have hlog : (k.after t).2.log = t.2.log := hcosts.spared hk
      constructor
      · rintro ⟨y, hy, hlacks⟩
        rcases List.mem_cons.mp hy with rfl | hy
        · exact absurd hlacks hk
        · rw [afterAll_cons, hasked ⟨y, hy, hlacks⟩, hlog]
      · intro hno
        have hnone : ¬ ∃ y ∈ exchanges (k.after t) ks, y.lacks := by
          rintro ⟨y, hy, hlacks⟩
          exact hno ⟨y, List.mem_cons_of_mem _ hy, hlacks⟩
        rw [afterAll_cons, hspared hnone, hlog]

end Steady

/-! ### Calls above the filters -/

namespace Cursor

variable {s : Cursor × Client} {m : ResultMetadata} {home : SetAddress}

/-- Metadata that an open cursor keeps are answered. -/
theorem answer_of_told (h : s.1.Agrees false) (htold : s.1.base.Told m) :
    CursorCall.metadata.answer s = .ok m := by
  obtain ⟨c, hc, hm⟩ := htold
  have hopen : c.state.closed = false := by
    have hbase := h.base
    rwa [hc] at hbase
  have hbottom : bottom s = (.record c, s.2) := Prod.ext hc rfl
  have hanswer := (metadata_open h).1
  rw [hbottom, BaseCursor.carries_record.answer .metadata (c, s.2)] at hanswer
  exact hanswer.trans (RecordCursor.answered_of_kept hopen hm s.2)

end Cursor

/-! ### From the statement on -/

namespace RecordCursor

variable {home : SetAddress} {c : RecordCursor}

end RecordCursor

namespace Cursor

variable {c : RecordCursor}

end Cursor

namespace RowStatement

def settings : RowStatement → Settings
  | select q => q.settings
  | distinct d => d.settings

def columns : RowStatement → List Column
  | select q => q.columns
  | distinct d => d.columns

/-- What opens the stream of the rows. -/
def source : RowStatement → ClientM RecordStream
  | select q => q.plan.execute
  | distinct d => d.groups

/-- The test that the rows have to pass. -/
def having : RowStatement → Option RowTest
  | select _ => none
  | distinct d => d.having

variable {st : RowStatement} {home : SetAddress}

/-- The test of the rows, if there is one, only looks. -/
def Looks (st : RowStatement) : Prop := ∀ test ∈ st.having, test.Looks

end RowStatement

end KeyedRows

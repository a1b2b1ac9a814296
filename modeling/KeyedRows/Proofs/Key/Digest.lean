/-
# What digests tell apart

What is hashed for a key is the name of its set, the tag of the user key and the
bytes of the user key, one after the other, and nothing says where the name ends.
A longer name can therefore take in the tag of another key and the start of its
bytes (`RunsInto`). Apart from that the hashed bytes tell the set's name and the
user key (`digestInput_eq_iff`), so keys of one set and keys with one user key
are always told apart, and so are all keys in sets whose names hold no character
that is a tag.

Key definitions: `UserKey.mark`, `RunsInto`, `HashesCollide`.
Key theorem: **`digest_eq_unless_names_run_on`**.
-/
import KeyedRows.Key.Digest
import KeyedRows.Proofs.Key.Bytes

namespace KeyedRows

open Text.Utf8

namespace UserKey

/-- The character whose one byte is the tag of the key. -/
def mark : UserKey → Char
  | .int _ => '\x01'
  | .text _ => '\x03'
  | .bytes _ => '\x04'

theorem encode_mark (u : UserKey) : encode (String.singleton u.mark) = [u.tag] := by
  cases u with
  | int n => exact (by decide : encode "\x01" = [1])
  | text s => exact (by decide : encode "\x03" = [3])
  | bytes bs => exact (by decide : encode "\x04" = [4])

/-- The tag and the bytes that are hashed tell the key. -/
theorem eq_of_digestBytes {u v : UserKey} (htag : u.tag = v.tag)
    (hbytes : u.digestBytes = v.digestBytes) : u = v := by
  cases u with
  | int m =>
    cases v with
    | int n =>
      have hread := congrArg Number.ofBigEndian hbytes
      simp only [digestBytes, Number.ofBigEndian_bigEndian] at hread
      have hm : m.toUInt64.toNat < 256 ^ 8 := m.toUInt64.toNat_lt
      have hn : n.toUInt64.toNat < 256 ^ 8 := n.toUInt64.toNat_lt
      rw [Nat.mod_eq_of_lt hm, Nat.mod_eq_of_lt hn] at hread
      have hword : m.toUInt64 = n.toUInt64 := UInt64.toNat_inj.mp hread
      exact congrArg (fun w : UInt64 => int w.toInt64) hword
    | text t => simp [tag] at htag
    | bytes cs => simp [tag] at htag
  | text s =>
    cases v with
    | int n => simp [tag] at htag
    | text t => rw [encode_injective hbytes]
    | bytes cs => simp [tag] at htag
  | bytes bs =>
    cases v with
    | int n => simp [tag] at htag
    | text t => simp [tag] at htag
    | bytes cs => exact congrArg bytes hbytes

end UserKey

namespace Key

/-- The name `t` goes on after the name `s` with the tag of the user key `u` and
some text, and the bytes of `u` are that text, the tag of `v` and the bytes of
`v`. -/
def RunsInto (s : String) (u : UserKey) (t : String) (v : UserKey) : Prop :=
  ∃ rest, t = s ++ String.singleton u.mark ++ rest ∧
    u.digestBytes = encode rest ++ v.tag :: v.digestBytes

variable {s t : String} {u v : UserKey}

/-- A longer name with the same hashed bytes is one that runs on. -/
theorem runsInto_of_longer {rest : List UInt8} (hname : encode t = encode s ++ u.tag :: rest)
    (hbytes : u.digestBytes = rest ++ v.tag :: v.digestBytes) : RunsInto s u t v := by
  have hmarked : encode t = encode (s ++ String.singleton u.mark) ++ rest := by
    rw [hname, encode_append, UserKey.encode_mark]
    simp
  obtain ⟨r, ht, rfl⟩ := eq_append_of_encode hmarked
  exact ⟨r, ht, hbytes⟩

theorem RunsInto.digestInput_eq (h : RunsInto s u t v) : digestInput s u = digestInput t v := by
  obtain ⟨rest, rfl, hbytes⟩ := h
  simp only [digestInput, encode_append, UserKey.encode_mark, hbytes, List.append_assoc,
    List.cons_append, List.nil_append]

/-- **The hashed bytes tell the name and the user key, unless one name runs into
the other key.** -/
theorem digestInput_eq_iff : digestInput s u = digestInput t v ↔
    (s = t ∧ u = v) ∨ RunsInto s u t v ∨ RunsInto t v s u := by
  constructor
  · intro h
    -- one of the names is as long as the other or begins it
    rcases List.append_eq_append_iff.mp h with ⟨more, hname, hrest⟩ | ⟨more, hname, hrest⟩
    · cases more with
      | nil =>
        rw [List.append_nil] at hname
        obtain ⟨htag, hbytes⟩ := List.cons.inj hrest
        exact .inl ⟨(encode_injective hname).symm, UserKey.eq_of_digestBytes htag hbytes⟩
      | cons b rest =>
        obtain ⟨rfl, hbytes⟩ := List.cons.inj hrest
        exact .inr (.inl (runsInto_of_longer hname hbytes))
    · cases more with
      | nil =>
        rw [List.append_nil] at hname
        obtain ⟨htag, hbytes⟩ := List.cons.inj hrest
        exact .inl ⟨encode_injective hname, (UserKey.eq_of_digestBytes htag hbytes).symm⟩
      | cons b rest =>
        obtain ⟨rfl, hbytes⟩ := List.cons.inj hrest
        exact .inr (.inr (runsInto_of_longer hname hbytes))
  · rintro (⟨rfl, rfl⟩ | h | h)
    · rfl
    · exact h.digestInput_eq
    · exact h.digestInput_eq.symm

/-- A name that runs on is another name. -/
theorem RunsInto.name_ne (h : RunsInto s u t v) : s ≠ t := by
  obtain ⟨rest, ht, -⟩ := h
  intro heq
  have hlength := congrArg String.length (heq.trans ht)
  simp only [String.length_append, String.length_singleton] at hlength
  omega

/-- The key whose bytes take in those of the other is another key. -/
theorem RunsInto.user_ne (h : RunsInto s u t v) : u ≠ v := by
  obtain ⟨rest, -, hbytes⟩ := h
  rintro rfl
  have hlength := congrArg List.length hbytes
  simp only [List.length_append, List.length_cons] at hlength
  omega

/-- A name that runs on holds the tag of the other key. -/
theorem RunsInto.mark_mem (h : RunsInto s u t v) : u.mark ∈ t.toList := by
  obtain ⟨rest, rfl, -⟩ := h
  simp

/-- The keys have one digest, though different bytes were hashed for them. -/
def HashesCollide (a b : Key) : Prop :=
  digestInput a.home.name a.user ≠ digestInput b.home.name b.user ∧ a.digest = b.digest

/-- **When two keys have one digest.** They name the same set and the same user
key, or the name of the one runs into the other, or the hashes collide; and what
is hashed is the same in the first two cases. A name runs into a key only if the
set and the user key are both different, and only if it holds one of the
characters that are tags. -/
theorem digest_eq_unless_names_run_on (a b : Key) :
    let same := a.home.name = b.home.name ∧ a.user = b.user
    let runsOn := RunsInto a.home.name a.user b.home.name b.user ∨
      RunsInto b.home.name b.user a.home.name a.user
    (digestInput a.home.name a.user = digestInput b.home.name b.user ↔ same ∨ runsOn) ∧
      (a.digest = b.digest ↔ same ∨ runsOn ∨ HashesCollide a b) ∧
      (runsOn → a.home.name ≠ b.home.name ∧ a.user ≠ b.user ∧
        (a.user.mark ∈ b.home.name.toList ∨ b.user.mark ∈ a.home.name.toList)) := by
  intro same runsOn
  have hinput : digestInput a.home.name a.user = digestInput b.home.name b.user ↔
      same ∨ runsOn := digestInput_eq_iff
  refine ⟨hinput, ⟨fun hdigest => ?_, ?_⟩, ?_⟩
  · by_cases heq : digestInput a.home.name a.user = digestInput b.home.name b.user
    · rw [← or_assoc]
      exact .inl (hinput.mp heq)
    · exact .inr (.inr ⟨heq, hdigest⟩)
  · rw [← or_assoc]
    rintro (h | hcollide)
    · simp only [digest, hinput.mpr h]
    · exact hcollide.2
  · rintro (h | h)
    · exact ⟨h.name_ne, h.user_ne, .inl h.mark_mem⟩
    · exact ⟨h.name_ne.symm, h.user_ne.symm, .inr h.mark_mem⟩

/-- A set that is named like another with a tag after it: its key has the digest
of a longer key of the other. -/
theorem key_of_longer_name_shares_digest :
    let a : Key := ⟨⟨"test", "a"⟩, .text "\x03b"⟩
    let b : Key := ⟨⟨"test", "a\x03"⟩, .text "b"⟩
    (a.home.name ≠ b.home.name ∧ a.user ≠ b.user) ∧
      digestInput a.home.name a.user = digestInput b.home.name b.user ∧ a.digest = b.digest := by
  refine ⟨by decide, by decide, ?_⟩
  have hinput : digestInput "a" (.text "\x03b") = digestInput "a\x03" (.text "b") := by decide
  exact congrArg (fun bytes => (Digest.sha256 bytes).take digestLength) hinput

/-- The name of a set runs on to a key of another kind. -/
theorem longer_name_runs_into_bytes :
    let a : Key := ⟨⟨"test", "a"⟩, .bytes [0x62, 0x03, 0x63]⟩
    let b : Key := ⟨⟨"test", "a\x04b"⟩, .text "c"⟩
    RunsInto a.home.name a.user b.home.name b.user ∧ a.digest = b.digest ∧
      a.home.name ≠ b.home.name ∧ a.user ≠ b.user ∧
        (a.user.mark ∈ b.home.name.toList ∨ b.user.mark ∈ a.home.name.toList) := by
  intro a b
  have hruns : RunsInto a.home.name a.user b.home.name b.user := ⟨"b", by decide, by decide⟩
  obtain ⟨-, hdigest, hapart⟩ := digest_eq_unless_names_run_on a b
  exact ⟨hruns, hdigest.mpr (.inr (.inl (.inl hruns))), hapart (.inl hruns)⟩

end Key
end KeyedRows

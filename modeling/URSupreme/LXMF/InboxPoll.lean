import URSupreme.LXMF.InboxSeq

/-!
# Polling a mailbox

`handle_inbox` and `handle_outbox` of `Web/WebUI/conversations.h`, and a web client that polls with
the number it was given last. A record that was appended since the last poll is returned by the next
one, unless its number was reserved before that poll, or the client has no number yet and there are
more records than it asks for.
-/

namespace URSupreme.Inbox
open Lib LXMF
open Gateway (Retention)

/-- `String::toInt` of a decimal number. -/
def toInt (n : Nat) : Nat := min n (2 ^ 31 - 1)

/-- The `limit` of a poll. -/
def pollLimit (limit : Nat) : Nat := if limit = 0 ∨ limit > 50 then 50 else limit

/-- `handle_inbox` and `handle_outbox`: the messages, and `next_since`. -/
def LXMFInbox.handle (since limit : Nat) (s : LXMFInbox) : List MessageRecord × Nat :=
  (if since > 0 then s.ring.filter (·.seq > since) else recent (pollLimit limit) s.ring, s.nextSeq)

/-- A mailbox and a client: its last `next_since`, the numbers of the records that were appended
since then, and the records that a poll should have returned but did not. -/
structure Polled where
  box : LXMFInbox
  since : Nat := 0
  appended : List Nat := []
  missed : List MessageRecord := []

/-- Something happens to the mailbox, or the client polls. -/
inductive PollEvent where
  | box (e : Event)
  | poll (limit : Nat)

/-- One event. -/
def Polled.step (P : Platform) (s : Polled) : PollEvent → Polled
  | .box e => { s with box := s.box.step P e, appended := s.appended ++ (e.names s.box).toList }
  | .poll limit =>
    let (messages, nextSince) := s.box.handle (toInt s.since) limit
    { s with
      since := nextSince
      appended := []
      missed := s.missed ++ s.box.ring.filter fun r => r.seq ∈ s.appended ∧ r ∉ messages }

/-- The step does not leave a record behind the client: a record that is appended has a number after
its last one, and a client without a number asks for as many records as there are. -/
def Polled.Kept (s : Polled) : PollEvent → Prop
  | .box e => (∀ opened, e ≠ .load opened) ∧ e.Counts s.box ∧
    match e with
    | .append r _ _ => r.seq = 0 ∨ s.since < r.seq
    | _ => True
  | .poll limit => s.since = 0 → s.box.ring.length ≤ pollLimit limit

/-- The client is behind every record that it has not seen. -/
structure Polled.Behind (s : Polled) : Prop where
  since : s.since ≤ s.box.nextSeq
  appended : ∀ n ∈ s.appended, s.since < n
  missed : s.missed = []

variable {P : Platform} {s : Polled} {e : PollEvent}

/-- Any step. -/
lemma Polled.Behind.step (h : s.Behind) (hk : s.Kept e) : (s.step P e).Behind := by
  cases e with
  | box e =>
    obtain ⟨hl, hc, hk⟩ := hk
    obtain ⟨hle, hhand⟩ := nextSeq_step (P := P) hl hc
    refine ⟨h.since.trans hle, fun n hn => ?_, h.missed⟩
    rcases List.mem_append.mp hn with hn | hn
    · exact h.appended n hn
    · cases e with
      | append r w now =>
        obtain rfl := Option.some.inj (Option.mem_toList.mp hn)
        by_cases h0 : r.seq = 0
        · have hh : (s.box.numbered r).seq ∈ Event.hands s.box (.append r w now) := by
            dsimp only [Event.hands, LXMFInbox.numbered]
            rw [if_pos h0, if_pos h0]
            rfl
          rw [(hhand _ hh).1]
          exact Nat.lt_succ_of_le h.since
        · have hseq : (s.box.numbered r).seq = r.seq := if_neg h0
          rw [hseq]
          exact hk.resolve_left h0
      | _ => exact absurd hn List.not_mem_nil
  | poll limit =>
    refine ⟨le_rfl, fun n hn => absurd hn List.not_mem_nil, ?_⟩
    have hnone : s.box.ring.filter (fun r => r.seq ∈ s.appended ∧
        r ∉ (s.box.handle (toInt s.since) limit).1) = [] := by
      refine List.filter_eq_nil_iff.mpr fun r hr => ?_
      rw [decide_eq_true_eq, not_and_not_right]
      intro hseq
      have hlt := h.appended _ hseq
      unfold LXMFInbox.handle
      dsimp only
      split
      next =>
        exact List.mem_filter.mpr ⟨hr, decide_eq_true ((min_le_left _ _).trans_lt hlt)⟩
      next h0 =>
        have h0 : s.since = 0 := by
          unfold toInt at h0
          omega
        rw [recent_of_le (hk h0)]
        exact hr
    show s.missed ++ _ = []
    rw [h.missed, List.nil_append]
    exact hnone

/-- No poll of such a run misses a record. -/
theorem missed_of_kept {ramCapacity : Nat} {defaultRetention : Retention}
    (h : Reach (Polled.step P) Polled.Kept { box := emptyInbox ramCapacity defaultRetention } s) :
    s.missed = [] := by
  have hb : s.Behind := h.invariant
    ⟨Nat.zero_le _, fun _ h => absurd h List.not_mem_nil, rfl⟩ fun hk hb => hb.step hk
  exact hb.missed

/-- A message and a poll, then a queued one that gets its number and is appended before the next. -/
def samplePolls : List PollEvent :=
  [.box (.append sampleRecord .whole none), .poll 0, .box .reserveSeq,
    .box (.append { sampleRecord with seq := 2 } .whole none), .poll 0]

lemma allowed_polls (P : Platform) :
    Allowed (Polled.step P) Polled.Kept { box := emptyInbox 2 {} } samplePolls :=
  ⟨⟨fun _ h => (nomatch h), fun _ => Nat.lt_of_lt_of_le (show 0 + 1 < 2 by decide) (by decide),
      .inl rfl⟩,
    fun _ => (show 1 ≤ 50 by decide),
    ⟨fun _ h => (nomatch h), fun _ => Nat.lt_of_lt_of_le (show 1 + 1 < 3 by decide) (by decide),
      trivial⟩,
    ⟨fun _ h => (nomatch h), fun h => absurd rfl h, .inr (show 1 < 2 by decide)⟩,
    fun _ => (show 2 ≤ 50 by decide), trivial⟩

/-- Both are returned. -/
theorem missed_of_kept_queued :
    let s := samplePolls.foldl (Polled.step samplePlatform) { box := emptyInbox 2 {} }
    s.since = 2 ∧ s.missed = [] :=
  ⟨rfl, missed_of_kept (Reach.init.run (allowed_polls samplePlatform))⟩

/-- The number is reserved before a poll, and the record is appended after it. -/
lemma missed_reserved (P : Platform) :
    ([.box .reserveSeq, .poll 0, .box (.append { sampleRecord with seq := 1 } .whole none),
      .poll 0].foldl (Polled.step P) { box := emptyInbox 2 {} }).missed.map (·.content) =
        [ascii "hi"] := rfl

/-- The client never gets it. -/
theorem not_missed_reserved :
    ([.box .reserveSeq, .poll 0, .box (.append { sampleRecord with seq := 1 } .whole none),
      .poll 0].foldl (Polled.step samplePlatform) { box := emptyInbox 2 {} }).missed ≠ [] := by
  intro h
  have hm := missed_reserved samplePlatform
  rw [h] at hm
  exact absurd hm (by decide)

end URSupreme.Inbox

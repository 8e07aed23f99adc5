import GoSync.Delivery.Http
import Mathlib.Data.List.Infix

/-!
# Ordered at-least-once delivery

Whatever the receiver answers and whenever the process restarts, a post is always of the message after the
acknowledged ones, with the bytes that were published, and the queue advances only over a message that the
receiver has acknowledged.
-/

namespace GoSync.Http

open Queue

variable {Raw : Type} {codec : Codec Raw} {decode : List UInt8 → Option Ack}

def acks : List (Entry Raw) → Nat
  | [] => 0
  | .acked _ true :: log => acks log + 1
  | .acked _ false :: log => acks log
  | .posted _ :: log => acks log

def Acknowledged (decode : List UInt8 → Option Ack) (log : List (Entry Raw)) (seq : Nat) : Prop :=
  ∃ post, .posted post ∈ log ∧ post.seq = seq ∧ Matches decode post.id post.seq post.reply

/-- What an entry has to do with the ones before it. A post is of the first message that is not
acknowledged, with its published bytes and id; `Ack` is called for a message that the receiver has
acknowledged. -/
def Follows (decode : List UInt8 → Option Ack) (origin : State) (published : List Raw) (first : Nat)
    (before : List (Entry Raw)) : Entry Raw → Prop
  | .posted post =>
      post.seq = first + acks before + 1
        ∧ post.id = messageId origin.sourceId origin.generation post.seq
        ∧ published[post.seq - 1]? = some post.body
  | .acked seq _ => seq = first + acks before + 1 ∧ Acknowledged decode before seq

structure Ordered (decode : List UInt8 → Option Ack) (origin : State) (first : Nat) (queue : Traced Raw)
    (log : List (Entry Raw)) : Prop where
  delivered : queue.db.state.deliveredSeq = first + acks log
  follows : ∀ entry before, entry :: before <:+ log →
    Follows decode origin queue.published first before entry

structure Head (origin : State) (queue : Traced Raw) (message : Message) : Prop where
  seq : message.seq = queue.db.state.deliveredSeq + 1
  id : message.id = messageId origin.sourceId origin.generation message.seq

def Placed (decode : List UInt8 → Option Ack) (origin : State) (queue : Traced Raw)
    (log : List (Entry Raw)) : Phase Raw → Prop
  | .posting message raw =>
      Head origin queue message ∧ queue.published[queue.db.state.deliveredSeq]? = some raw
  | .acking message => Head origin queue message ∧ Acknowledged decode log message.seq
  | _ => True

structure Sound (codec : Codec Raw) (decode : List UInt8 → Option Ack) (first : Nat) (origin : State)
    (sys : System Raw) : Prop where
  sim : Sim codec origin sys.queue.db sys.queue.fifo
  ordered : Ordered decode origin first sys.queue sys.log
  placed : Placed decode origin sys.queue sys.log sys.phase

section Logs

variable {origin : State} {published : List Raw} {first : Nat} {log : List (Entry Raw)}
  {entry : Entry Raw}

theorem Follows.extend {more : List Raw} {before : List (Entry Raw)} (hextend : published <+: more)
    (h : Follows decode origin published first before entry) :
    Follows decode origin more first before entry := by
  cases entry with
  | posted post =>
      obtain ⟨hseq, hid, hbody⟩ := h
      obtain ⟨rest, rfl⟩ := hextend
      refine ⟨hseq, hid, ?_⟩
      rw [List.getElem?_append_left (List.getElem?_eq_some_iff.mp hbody).1]
      exact hbody
  | acked seq done => exact h

theorem log_eq_nil (h : ∀ entry before, entry :: before <:+ log →
    Follows decode origin [] first before entry) : log = [] := by
  have hnone : ∀ post, .posted post ∉ log := by
    intro post hmem
    obtain ⟨after, before, rfl⟩ := List.append_of_mem hmem
    have hfollows := h (.posted post) before (List.suffix_append _ _)
    cases hfollows.2.2
  cases log with
  | nil => rfl
  | cons entry before =>
      cases entry with
      | posted post => exact absurd List.mem_cons_self (hnone post)
      | acked seq done =>
          obtain ⟨-, post, hpost, -⟩ := h _ _ List.suffix_rfl
          exact absurd (List.mem_cons_of_mem _ hpost) (hnone post)

/-- What is delivered has been acknowledged. -/
theorem acknowledged_of_delivered (h : ∀ entry before, entry :: before <:+ log →
    Follows decode origin published first before entry) {seq : Nat} (hfirst : first < seq)
    (hseq : seq ≤ first + acks log) : Acknowledged decode log seq := by
  induction log with
  | nil =>
      rw [acks] at hseq
      omega
  | cons entry before ih =>
      have hbefore := ih fun other rest hsuffix => h other rest (hsuffix.trans (List.suffix_cons _ _))
      have hkeep : Acknowledged decode before seq → Acknowledged decode (entry :: before) seq := by
        rintro ⟨post, hpost, hmatches⟩
        exact ⟨post, List.mem_cons_of_mem _ hpost, hmatches⟩
      have hfollows := h entry before List.suffix_rfl
      cases entry with
      | posted post => exact hkeep (hbefore hseq)
      | acked number done =>
          cases done with
          | false => exact hkeep (hbefore hseq)
          | true =>
              rw [acks] at hseq
              by_cases hlast : seq = first + acks before + 1
              · have hnumber : number = seq := hfollows.1.trans hlast.symm
                exact hkeep (hnumber ▸ hfollows.2)
              · exact hkeep (hbefore (by omega))

theorem acks_suffix {before : List (Entry Raw)} (h : before <:+ log) : acks before ≤ acks log := by
  induction log with
  | nil =>
      rw [List.suffix_nil.mp h]
  | cons entry rest ih =>
      rcases List.suffix_cons_iff.mp h with rfl | h
      · exact le_rfl
      · refine (ih h).trans ?_
        cases entry with
        | posted post => exact le_rfl
        | acked seq done =>
            cases done with
            | false => exact le_rfl
            | true => exact Nat.le_succ _

theorem acknowledged_le (h : ∀ entry before, entry :: before <:+ log →
    Follows decode origin published first before entry) {seq : Nat}
    (hseq : Acknowledged decode log seq) : seq ≤ first + acks log + 1 := by
  obtain ⟨post, hpost, rfl, -⟩ := hseq
  obtain ⟨after, before, rfl⟩ := List.append_of_mem hpost
  have hfollows := h (.posted post) before (List.suffix_append _ _)
  have hbefore : before <:+ after ++ .posted post :: before :=
    (List.suffix_cons _ _).trans (List.suffix_append _ _)
  have hle := acks_suffix hbefore
  rw [hfollows.1]
  omega

end Logs

section Steps

variable {origin : State} {first : Nat} {sys : System Raw}

theorem Ordered.push {queue next : Traced Raw} {log : List (Entry Raw)} {entry : Entry Raw}
    (h : Ordered decode origin first queue log) (hpublished : queue.published = next.published)
    (hdelivered : next.db.state.deliveredSeq = first + acks (entry :: log))
    (hentry : Follows decode origin queue.published first log entry) :
    Ordered decode origin first next (entry :: log) := by
  refine ⟨hdelivered, ?_⟩
  intro other before hsuffix
  rw [← hpublished]
  rcases List.suffix_cons_iff.mp hsuffix with hlast | hsuffix
  · cases hlast
    exact hentry
  · exact h.follows other before hsuffix

section Steps

variable (h : Sound codec decode first origin sys)
include h

theorem Sound.look :
    Sound codec decode first origin (look codec sys) := by
  unfold Http.look
  split
  · rcases h.sim.peek with ⟨-, hpeek⟩ | ⟨raw, message, hhead, -, hseq, hid, -, hpeek⟩
    · rw [hpeek]
      exact h
    · rw [hpeek]
      have hnext : Head origin sys.queue message := ⟨hseq, by rw [hid, hseq]⟩
      exact ⟨h.sim, h.ordered, hnext, hhead⟩
  · exact h

theorem Sound.post (reply : Reply) :
    Sound codec decode first origin (post decode reply sys) := by
  have hplaced := h.placed
  unfold Http.post
  split
  · rename_i message raw hphase
    rw [hphase] at hplaced
    obtain ⟨hhead, hraw⟩ := hplaced
    by_cases hinvalid : reply = .invalidRequest
    · subst hinvalid
      exact ⟨h.sim, h.ordered, trivial⟩
    · simp only [if_neg hinvalid]
      have hentry : Follows decode origin sys.queue.published first sys.log
          (.posted { seq := message.seq, id := message.id, body := raw, reply := reply }) := by
        refine ⟨?_, hhead.id, ?_⟩
        · rw [← h.ordered.delivered]
          exact hhead.seq
        · change sys.queue.published[message.seq - 1]? = some raw
          rw [hhead.seq, Nat.add_sub_cancel]
          exact hraw
      have hpush : Ordered decode origin first sys.queue
          (.posted { seq := message.seq, id := message.id, body := raw, reply := reply } :: sys.log) :=
        h.ordered.push rfl h.ordered.delivered hentry
      split
      · rename_i retry hsend
        have hmatches := matches_of_send hsend
        exact ⟨h.sim, hpush, hhead, _, List.mem_cons_self, rfl, hmatches⟩
      · exact ⟨h.sim, hpush, trivial⟩
      · exact ⟨h.sim, hpush, trivial⟩
  · exact h

theorem Sound.ack (storage : Bool)
    (since : String → Option Int) : Sound codec decode first origin (ack codec storage since sys) := by
  have hplaced := h.placed
  unfold Http.ack
  split
  · rename_i message hphase
    rw [hphase] at hplaced
    obtain ⟨hhead, hacknowledged⟩ := hplaced
    have hseq : message.seq = first + acks sys.log + 1 := by
      rw [← h.ordered.delivered]
      exact hhead.seq
    cases storage with
    | false => exact ⟨h.sim, h.ordered.push rfl h.ordered.delivered ⟨hseq, hacknowledged⟩, trivial⟩
    | true =>
        split
        · exact ⟨h.sim, h.ordered.push rfl h.ordered.delivered ⟨hseq, hacknowledged⟩, trivial⟩
        · rename_i queue hexec
          rcases Traced.sim_exec h.sim hexec with ⟨hrestarts, -⟩ | ⟨-, -, hsim⟩
          · cases hrestarts
          · have hgroups : queue.groups = sys.queue.groups := (Traced.exec_eq_ok hexec).2.2
            have hpublished : sys.queue.published = queue.published := by
              unfold Traced.published Traced.fifo GroupFifo.published
              rw [hgroups]
            have hdelivered : queue.db.state.deliveredSeq
                = first + acks (.acked message.seq true :: sys.log) := by
              have hone : queue.db.state.deliveredSeq = sys.queue.db.state.deliveredSeq + 1 :=
                Traced.delivered_exec h.sim hexec
              rw [hone, h.ordered.delivered]
              rfl
            exact ⟨hsim, h.ordered.push hpublished hdelivered ⟨hseq, hacknowledged⟩, trivial⟩
  · exact h

theorem Sound.extend {queue : Traced Raw}
    (hsim : Sim codec origin queue.db queue.fifo) (hgroups : sys.queue.groups <+: queue.groups)
    (hdelivered : queue.db.state.deliveredSeq = sys.queue.db.state.deliveredSeq) :
    Sound codec decode first origin { sys with queue := queue } := by
  have hextend : sys.queue.published <+: queue.published :=
    GroupFifo.published_extend_of_groups hgroups
  have hhead : ∀ message, Head origin sys.queue message → Head origin queue message := by
    intro message hhead
    exact ⟨hdelivered ▸ hhead.seq, hhead.id⟩
  refine ⟨hsim, ⟨hdelivered.trans h.ordered.delivered, ?_⟩, ?_⟩
  · exact fun entry before hsuffix => (h.ordered.follows entry before hsuffix).extend hextend
  · have hplaced := h.placed
    change Placed decode origin queue sys.log sys.phase
    cases hphase : sys.phase with
    | looking => trivial
    | stopped err => trivial
    | acking message =>
        rw [hphase] at hplaced
        exact ⟨hhead message hplaced.1, hplaced.2⟩
    | posting message raw =>
        rw [hphase] at hplaced
        obtain ⟨rest, hrest⟩ := hextend
        refine ⟨hhead message hplaced.1, ?_⟩
        rw [← hrest, hdelivered, List.getElem?_append_left (List.getElem?_eq_some_iff.mp hplaced.2).1]
        exact hplaced.2

theorem Sound.startOver {st : State} {queue : Traced Raw}
    (hready : sys.queue.db.state.readySeq = 0) (hexec : sys.queue.exec codec (.initializeQueue st) = .ok queue) :
    Sound codec decode first st { sys with queue := queue } := by
  obtain ⟨hdb, -, hgroups⟩ := Traced.exec_eq_ok hexec
  have hempty : sys.queue.published = [] := List.length_eq_zero_iff.mp (h.sim.ready.symm.trans hready)
  have hfollows := h.ordered.follows
  rw [hempty] at hfollows
  have hlog : sys.log = [] := log_eq_nil hfollows
  have hsim : Sim codec st queue.db {} := Sim.initializeQueue hdb
  have hfirst : first = 0 := by
    have hdelivered := h.ordered.delivered
    have hle := h.sim.delivered_le_ready
    omega
  have hzero : queue.db.state.deliveredSeq = first + acks ([] : List (Entry Raw)) :=
    hsim.delivered.trans hfirst.symm
  rw [← Traced.fifo_eq hsim hgroups] at hsim
  have hplaced := h.placed
  refine ⟨hsim, ?_, ?_⟩
  · change Ordered decode st first queue sys.log
    rw [hlog]
    exact ⟨hzero, fun entry before hsuffix => absurd (List.suffix_nil.mp hsuffix) (List.cons_ne_nil _ _)⟩
  · change Placed decode st queue sys.log sys.phase
    cases hphase : sys.phase with
    | looking => trivial
    | stopped err => trivial
    | acking message =>
        rw [hphase, hlog] at hplaced
        obtain ⟨-, post, hpost, -⟩ := hplaced
        exact absurd hpost List.not_mem_nil
    | posting message raw =>
        rw [hphase] at hplaced
        have hraw := hplaced.2
        rw [hempty] at hraw
        cases hraw

theorem Sound.produce {op : Op} (hproduces : Produces sys (.produce op)) :
    ∃ origin, Sound codec decode first origin (produce codec op sys) := by
  unfold Http.produce
  cases hexec : sys.queue.exec codec op with
  | error err => exact ⟨origin, h⟩
  | ok queue =>
      rcases Traced.sim_exec h.sim hexec with ⟨hrestarts, -⟩ | ⟨hkeeps, hgroups, hsim⟩
      · cases op with
        | initializeQueue st => exact ⟨st, h.startOver hproduces hexec⟩
        | resetForSnapshot => exact hproduces.elim
        | _ => cases hrestarts
      · have hdelivered := Traced.delivered_exec h.sim hexec
        cases op with
        | ack since seq id => exact hproduces.elim
        | initializeQueue st => cases hkeeps
        | resetForSnapshot => cases hkeeps
        | _ => exact ⟨origin, h.extend hsim hgroups hdelivered⟩

end Steps

theorem sound_step {action : Action} (h : ∃ origin, Sound codec decode first origin sys)
    (hproduces : Produces sys action) :
    ∃ origin, Sound codec decode first origin (sys.step codec decode action) := by
  obtain ⟨origin, h⟩ := h
  cases action with
  | look => exact ⟨origin, h.look⟩
  | post reply => exact ⟨origin, h.post reply⟩
  | ack storage since => exact ⟨origin, h.ack storage since⟩
  | cancel => exact ⟨origin, h.sim, h.ordered, trivial⟩
  | restart => exact ⟨origin, h.sim, h.ordered, trivial⟩
  | produce op => exact h.produce hproduces

end Steps

/-- A post leaves the queue as it is. After it, the sender looks again, has stopped, or has a matching
acknowledgement. -/
theorem post_cases {sys : System Raw} {message : Message} {raw : Raw} (reply : Reply)
    (hphase : sys.phase = .posting message raw) :
    (post decode reply sys).queue = sys.queue
      ∧ ((Retryable reply ∧ (post decode reply sys).phase = .looking)
        ∨ (¬ Retryable reply ∧ ∃ err, (post decode reply sys).phase = .stopped (.send err))
        ∨ (Matches decode message.id message.seq reply
          ∧ (post decode reply sys).phase = .acking message)) := by
  have hretry : (send decode message reply).1 = true ↔ Retryable reply := send_retry
  unfold post
  cases hsend : send decode message reply with
  | mk retry error =>
      rw [hsend] at hretry
      simp only [hphase, hsend]
      cases error with
      | none => exact ⟨rfl, Or.inr (Or.inr ⟨matches_of_send hsend, rfl⟩)⟩
      | some err =>
          cases retry with
          | true => exact ⟨rfl, Or.inl ⟨hretry.mp rfl, rfl⟩⟩
          | false =>
              have hnot : ¬ Retryable reply := fun h => Bool.false_ne_true (hretry.mpr h)
              exact ⟨rfl, Or.inr (Or.inl ⟨hnot, err, rfl⟩)⟩

/-- **Ordered at-least-once delivery.** In every run, whatever the receiver answers, the posts and the calls
of `Ack` follow the order of the queue; the numbers that were acknowledged are those up to some last one,
with every delivered number among them; and an answer leaves the queue as it is and stops the sender unless
it is retryable or acknowledges the message. -/
theorem ordered_delivery (codec : Codec Raw) (decode : List UInt8 → Option Ack) (origin : State)
    (queue : Traced Raw) (hqueue : Sim codec origin queue.db queue.fifo) (actions : List Action)
    (hproduces : Run.Along (System.step codec decode) Produces { queue := queue } actions) :
    let first := queue.db.state.deliveredSeq
    let final := actions.foldl (System.step codec decode) { queue := queue }
    (∃ origin, Ordered decode origin first final.queue final.log)
      ∧ (∃ last, final.queue.db.state.deliveredSeq ≤ last
        ∧ ∀ seq, first < seq → (Acknowledged decode final.log seq ↔ seq ≤ last))
      ∧ ∀ message raw reply, final.phase = .posting message raw →
        let next := final.step codec decode (.post reply)
        next.queue = final.queue
          ∧ ((Retryable reply ∧ next.phase = .looking)
            ∨ (¬ Retryable reply ∧ ∃ err, next.phase = .stopped (.send err))
            ∨ (Matches decode message.id message.seq reply ∧ next.phase = .acking message)) := by
  intro first final
  have hstart : Sound codec decode first origin { queue := queue } :=
    ⟨hqueue, ⟨rfl, fun entry before hsuffix => absurd (List.suffix_nil.mp hsuffix) (List.cons_ne_nil _ _)⟩,
      trivial⟩
  obtain ⟨origin, hfinal⟩ : ∃ origin, Sound codec decode first origin final :=
    hproduces.invariant (fun sys => ∃ origin, Sound codec decode first origin sys)
      (fun sys action _ h hstep => sound_step h hstep) ⟨origin, hstart⟩
  have hfollows := hfinal.ordered.follows
  have hdelivered := hfinal.ordered.delivered
  refine ⟨⟨origin, hfinal.ordered⟩, ?_, fun message raw reply => post_cases reply⟩
  -- The last acknowledged number is the last delivered one or the one after it.
  by_cases hahead : Acknowledged decode final.log (final.queue.db.state.deliveredSeq + 1)
  · refine ⟨final.queue.db.state.deliveredSeq + 1, Nat.le_succ _, ?_⟩
    intro seq hfirst
    constructor
    · intro hseq
      rw [hdelivered]
      exact acknowledged_le hfollows hseq
    · intro hle
      by_cases hlast : seq = final.queue.db.state.deliveredSeq + 1
      · exact hlast ▸ hahead
      · exact acknowledged_of_delivered hfollows hfirst (by omega)
  · refine ⟨final.queue.db.state.deliveredSeq, le_rfl, ?_⟩
    intro seq hfirst
    constructor
    · intro hseq
      have hle := acknowledged_le hfollows hseq
      by_cases hlast : seq = final.queue.db.state.deliveredSeq + 1
      · exact absurd (hlast ▸ hseq) hahead
      · omega
    · intro hle
      exact acknowledged_of_delivered hfollows hfirst (by omega)

section TwoMessages

def announced : Traced Message where
  limits := { maxBytes := 10, reserve := 0 }
  db := { state := { sourceId := "s", generation := "g", phase := .snapshot, earliestSeq := 1 } }

def firstTwo (body : List UInt8) : Option Ack :=
  if body = [1] then some ⟨"s/g/1", 1⟩ else if body = [2] then some ⟨"s/g/2", 2⟩ else none

def restartedDelivery : List Action :=
  [.produce (.append { free := some 100, now := "now" } { kind := .snapshotBegin }),
    .produce (.append { free := some 100, now := "now" } { kind := .snapshotEnd }),
    .produce (.publish "0/1" true), .look, .post (.response 503 none), .restart, .look,
    .post (.response 200 (some [1])), .ack true fun _ => none, .look, .post (.response 200 (some [2])),
    .ack true fun _ => none]

end TwoMessages

theorem ordered_delivery_two_messages :
    let final := restartedDelivery.foldl (System.step .plain firstTwo) { queue := announced }
    final.queue.db.state.deliveredSeq = 2
      ∧ (∃ origin, Ordered firstTwo origin 0 final.queue final.log)
      ∧ Acknowledged firstTwo final.log 1 ∧ Acknowledged firstTwo final.log 2 := by
  have hsim : Sim Codec.plain { sourceId := "s", generation := "g" } announced.db announced.fifo :=
    Sim.initializeQueue (show initializeQueue _ ({} : Db Message) = .ok announced.db from rfl)
  have hproduces : Run.Along (System.step .plain firstTwo) Produces { queue := announced }
      restartedDelivery := by
    simp [restartedDelivery, Run.Along, Produces]
  have hdelivered : (restartedDelivery.foldl (System.step .plain firstTwo)
      { queue := announced }).queue.db.state.deliveredSeq = 2 := by decide
  obtain ⟨hordered, ⟨last, hlast, hgapFree⟩, -⟩ :=
    ordered_delivery .plain firstTwo _ announced hsim restartedDelivery hproduces
  rw [hdelivered] at hlast
  exact ⟨hdelivered, hordered, (hgapFree 1 (by decide)).mpr (by omega), (hgapFree 2 (by decide)).mpr hlast⟩

end GoSync.Http

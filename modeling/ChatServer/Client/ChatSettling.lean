import ChatServer.Client.WhileChatting

/-! # The chat settles while users chat

Without further clicks and messages, what is under way dies down also when users have
chatted: a message leads to one answer and one packet for each member of its room. Then the
forms agree with the rooms.
-/

namespace ChatServer.Client
open Recorded Server

variable {n m : ℕ} {δ : Type*} {env : Env δ}

/-! ## Weights -/

/-- The messages in a queue -/
def chatFrames (queue : List Bytes) : ℕ := queue.countP (IsChatFrame ·)

/-- The packets about messages -/
def chatPackets (packets : List Packet) : ℕ := packets.countP (IsChatPacket ·)

theorem chatFrames_cons (frame : Bytes) (queue : List Bytes) :
    chatFrames (frame :: queue) = chatFrames queue + if IsChatFrame frame then 1 else 0 := by
  rw [chatFrames, List.countP_cons]
  simp only [decide_eq_true_eq]
  rfl

theorem chatPackets_cons (packet : Packet) (packets : List Packet) :
    chatPackets (packet :: packets) =
      chatPackets packets + if IsChatPacket packet then 1 else 0 := by
  rw [chatPackets, List.countP_cons]
  simp only [decide_eq_true_eq]
  rfl

theorem chatFrames_append_requests (queue : List Bytes) (requests : List Request) :
    chatFrames (queue ++ requests.map Request.frame) = chatFrames queue := by
  have hnone : (requests.map Request.frame).countP (IsChatFrame ·) = 0 := by
    rw [List.countP_eq_zero]
    intro frame hframe
    rcases List.mem_map.mp hframe with ⟨r, -, rfl⟩
    simpa using r.not_isChatFrame
  rw [chatFrames, List.countP_append, hnone]
  rfl

theorem chatPackets_notices (notices : List Notice) :
    chatPackets ((notices.map Told.notice).map (Told.packet env)) = 0 := by
  rw [chatPackets, List.countP_eq_zero, List.map_map]
  intro packet hpacket
  rcases List.mem_map.mp hpacket with ⟨x, -, rfl⟩
  exact fun hchat => x.not_isChatPacket env.unset (of_decide_eq_true hchat)

theorem sum_update {α : Type*} (f : α → ℕ) (g : Fin n → α) (c : Fin n) (x : α) :
    ∑ d, f (Function.update g c x d) + f (g c) = ∑ d, f (g d) + f x := by
  have hrest : ∑ d ∈ Finset.univ.erase c, f (Function.update g c x d) =
      ∑ d ∈ Finset.univ.erase c, f (g d) :=
    Finset.sum_congr rfl fun d hd => by rw [Function.update_of_ne (Finset.ne_of_mem_erase hd)]
  rw [← Finset.sum_erase_add _ _ (Finset.mem_univ c), hrest, Function.update_self,
    ← Finset.sum_erase_add _ (fun d => f (g d)) (Finset.mem_univ c)]
  omega

/-- Every packet is sent to one client. -/
theorem sum_length_sentTo (sent : List (Sent n)) : ∑ d, (sentTo sent d).length = sent.length := by
  induction sent with
  | nil => simp [sentTo]
  | cons x sent ih =>
    have hcons (d : Fin n) : (sentTo (x :: sent) d).length =
        (if d = x.clientIndex then 1 else 0) + (sentTo sent d).length := by
      rw [← List.singleton_append, sentTo_append, sentTo_singleton, List.length_append]
      split_ifs <;> rfl
    simp only [hcons, Finset.sum_add_distrib, Finset.sum_ite_eq', Finset.mem_univ, if_true, ih,
      List.length_cons]
    omega

/-- A message is answered, and told to the members of its room. -/
theorem length_sent_roomChat {ids : Fin n → UserId} {s s' : Server n m δ} {c : Fin n}
    {message : ChatText} {sent : List (Sent n)} (h : Online ids s) (hc : LoggedIn s c)
    (hevent : s.processEvent env (frameEvent c (Posted.roomChat message).frame) = some (s', sent)) :
    sent.length ≤ n + 1 := by
  rw [processEvent_posted env h hc] at hevent
  rcases hc with hlobby | hin
  · rw [hlobby] at hevent
    obtain ⟨-, rfl⟩ := Prod.mk.inj (Option.some.inj hevent)
    exact Nat.zero_le _
  · rcases exists_room_of_inRoom h.membership hin with ⟨k, hroom, -⟩
    rw [hin] at hevent
    have hsent := sent_processRoomChatMessage env hroom (Posted.roomChat message).frame
    have heq : (s.processRoomChatMessage env c (Posted.roomChat message).frame).2 = sent :=
      congrArg Prod.snd (Option.some.inj hevent)
    have hmembers := (h.membership.nodup k).length_le_card
    rw [Fintype.card_fin] at hmembers
    rw [← heq, hsent, List.length_cons, broadcast, List.length_map]
    exact Nat.succ_le_succ hmembers

namespace ChatRooms

/-- How many steps may follow from the messages under way -/
def chatWeight (σ : ChatRooms n m δ) : ℕ :=
  (n + 2) * ∑ c, chatFrames (σ.form c).sendPacketQueue + ∑ c, chatPackets (σ.packets c)

/-- How many steps may follow from what is under way -/
def weight (σ : ChatRooms n m δ) : ℕ := σ.withoutChat.weight + σ.chatWeight

section

variable {ids : Fin n → UserId} {past : History n m δ} {σ σ' : ChatRooms n m δ} {c : Fin n}

/-- Each frame that is processed lowers the weight. -/
theorem Invariant.weight_dispatch (h : Invariant ids env past σ)
    (hrooms : ChatSystem.Invariant ids env.unset σ.withoutChat) (hids : Function.Injective ids)
    (hstep : σ.step env (.dispatch c) = some σ') (hspace : σ.EntrySucceeds (.dispatch c)) :
    σ'.weight < σ.weight := by
  have hseen := h.seenWithoutChat hids hstep hspace
  rcases h.dispatched hids hstep hspace with
    ⟨hc, p, posted, pending, sent, told, hfollows, hevent, htaken, hforms, hpackets⟩
  have hqueue := hfollows.sendPacketQueue
  have hframes : ∑ d, chatFrames (σ'.form d).sendPacketQueue +
        chatFrames (σ.form c).sendPacketQueue =
      ∑ d, chatFrames (σ.form d).sendPacketQueue + chatFrames (posted.map Posted.frame) := by
    rw [hforms]
    exact sum_update (fun form : ChatForm => chatFrames form.sendPacketQueue) σ.form c _
  rw [hqueue, List.map_cons, chatFrames_cons] at hframes
  have hsum : ∑ d, chatPackets (σ'.packets d) =
      ∑ d, chatPackets (σ.packets d) + ∑ d, chatPackets (sentTo sent d) := by
    rw [hpackets, ← Finset.sum_add_distrib]
    exact Finset.sum_congr rfl fun d _ => List.countP_append
  rw [weight, weight, chatWeight, chatWeight, hsum]
  cases p with
  | roomChat message =>
    have hchat : IsChatFrame (Posted.roomChat message).frame := Posted.isChatFrame_roomChat message
    have hsame : σ.withoutChat = σ'.withoutChat :=
      hseen.1 ((withoutChatAction_dispatch hqueue).trans (if_pos hchat))
    have htold : ∑ d, chatPackets (sentTo sent d) ≤ n + 1 := by
      calc ∑ d, chatPackets (sentTo sent d)
          ≤ ∑ d, (sentTo sent d).length := Finset.sum_le_sum fun d _ => List.countP_le_length
        _ = sent.length := sum_length_sentTo sent
        _ ≤ n + 1 := length_sent_roomChat h.online hc hevent
    rw [if_pos hchat] at hframes
    have hless : ∑ d, chatFrames (σ.form d).sendPacketQueue =
        ∑ d, chatFrames (σ'.form d).sendPacketQueue + 1 := by omega
    rw [hsame, hless, Nat.mul_succ]
    omega
  | request r =>
    have hframe : ¬IsChatFrame (Posted.request r).frame := r.not_isChatFrame
    have hb : withoutChatAction ⟨σ, .dispatch c, σ'⟩ = some (.dispatch c) :=
      (withoutChatAction_dispatch hqueue).trans (if_neg hframe)
    have hlt : σ'.withoutChat.weight < σ.withoutChat.weight :=
      hrooms.weight_dispatch hids (hseen.2 _ hb) (EntrySucceeds.withoutChat hspace hb)
    rcases htaken.request r rfl with ⟨notices, -, htold⟩
    have hnone : ∑ d, chatPackets (sentTo sent d) = 0 := by
      apply Finset.sum_eq_zero
      intro d _
      rw [htaken.sent, htold]
      exact chatPackets_notices (notices d)
    rw [if_neg hframe] at hframes
    have hless : ∑ d, chatFrames (σ'.form d).sendPacketQueue =
        ∑ d, chatFrames (σ.form d).sendPacketQueue := by omega
    rw [hnone, hless]
    exact Nat.add_lt_add_right hlt _

/-- Each packet that is processed lowers the weight. -/
theorem Invariant.weight_process (h : Invariant ids env past σ)
    (hrooms : ChatSystem.Invariant ids env.unset σ.withoutChat)
    (hstep : σ.step env (.process c) = some σ') : σ'.weight < σ.weight := by
  have hseen := seenWithoutChat_process h hstep
  rcases h.processed hstep with ⟨-, x, packets, form, hpackets, hprocess, hpost⟩
  have hform1 := (σ.form c).packetProcess_toForm1 (x.packet env)
  rw [hprocess, Option.map_some] at hform1
  rcases (Form1.posts_packetProcess _).requests _ _ hform1.symm with ⟨requests, hrequests⟩
  have hqueue : chatFrames form.sendPacketQueue = chatFrames (σ.form c).sendPacketQueue := by
    rw [hrequests]
    exact chatFrames_append_requests _ _
  have hframes := sum_update (fun form => chatFrames form.sendPacketQueue) σ.form c form
  have hsum := sum_update chatPackets σ.packets c packets
  have hforms : σ'.form = Function.update σ.form c form := by rw [hpost]
  have hpackets' : σ'.packets = Function.update σ.packets c packets := by rw [hpost]
  rw [← hforms, hqueue] at hframes
  rw [← hpackets', hpackets, chatPackets_cons] at hsum
  have hsame : ∑ d, chatFrames (σ'.form d).sendPacketQueue =
      ∑ d, chatFrames (σ.form d).sendPacketQueue := by omega
  rw [weight, weight, chatWeight, chatWeight, hsame]
  by_cases hchat : IsChatPacket (x.packet env)
  · have hrest : σ.withoutChat = σ'.withoutChat :=
      hseen.1 ((withoutChatAction_process hpackets).trans (if_pos hchat))
    rw [if_pos hchat] at hsum
    rw [hrest]
    omega
  · have hlt : σ'.withoutChat.weight < σ.withoutChat.weight := hrooms.weight_process
      (hseen.2 _ ((withoutChatAction_process hpackets).trans (if_neg hchat)))
    rw [if_neg hchat] at hsum
    omega

/-! ## What is under way can go on -/

/-- A client with anything under way has logged in. -/
theorem Invariant.loggedIn_of_busy (h : Invariant ids env past σ)
    (hbusy : (σ.form c).sendPacketQueue ≠ [] ∨ σ.packets c ≠ []) : LoggedIn σ.server c := by
  by_contra hc
  have hsilent := h.silent c hc
  exact hbusy.elim (fun hqueue => hqueue hsilent.sendPacketQueue) fun hpackets =>
    hpackets hsilent.packets

theorem Invariant.dispatch_enabled (h : Invariant ids env past σ)
    (hrooms : ChatSystem.Invariant ids env.unset σ.withoutChat) (hids : Function.Injective ids)
    (hqueue : (σ.form c).sendPacketQueue ≠ []) : σ.step env (.dispatch c) ≠ none := by
  have hc := h.loggedIn_of_busy (.inl hqueue)
  rcases h.followed c hc with ⟨queue, told, hfollows⟩
  have hposted := hfollows.sendPacketQueue
  cases queue with
  | nil => exact absurd hposted hqueue
  | cons p queue =>
    rw [List.map_cons] at hposted
    have hevent : σ.server.processEvent env (frameEvent c p.frame) ≠ none := by
      cases p with
      | roomChat message =>
        rcases exists_taken env h.online hids hc (.roomChat message) (fun _ hp => by cases hp) with
          ⟨s', sent, told, hevent, -⟩
        rw [hevent]
        exact Option.some_ne_none _
      | request r =>
        have hwithout : (σ.withoutChat.form c).sendPacketQueue =
            r.frame :: (queue.map Posted.frame).filter (¬IsChatFrame ·) := by
          refine (congrArg (List.filter (¬IsChatFrame ·)) hposted).trans ?_
          exact List.filter_cons_of_pos (decide_eq_true r.not_isChatFrame)
        have henabled : σ.withoutChat.step env (.dispatch c) ≠ none :=
          hrooms.dispatch_enabled (by simp [hwithout])
        rw [ChatSystem.step, hwithout] at henabled
        exact fun hnone => henabled (Option.map_eq_none_iff.mpr hnone)
    rw [ChatRooms.step, hposted]
    exact fun hnone => hevent (Option.map_eq_none_iff.mp hnone)

theorem Invariant.process_enabled (h : Invariant ids env past σ)
    (hrooms : ChatSystem.Invariant ids env.unset σ.withoutChat) (hpackets : σ.packets c ≠ []) :
    σ.step env (.process c) ≠ none := by
  have hc := h.loggedIn_of_busy (.inr hpackets)
  rcases h.followed c hc with ⟨queue, told, hfollows⟩
  have htold := hfollows.packets
  cases told with
  | nil => exact absurd htold hpackets
  | cons x told =>
    rw [List.map_cons] at htold
    have hprocess : (σ.form c).packetProcess (x.packet env) ≠ none := by
      cases x with
      | ackRoomChat =>
        change (σ.form c).ofForm1 Form1.processAckRoomChat _ ≠ none
        rw [ChatForm.ofForm1, Form1.processAckRoomChat, Told.packet, ackFromBytes_ackPacket]
        exact Option.some_ne_none _
      | notifyRoomChat id message =>
        change (σ.form c).processNotifyRoomChat _ ≠ none
        rw [ChatForm.processNotifyRoomChat, notifyRoomChatFromBytes_packet]
        exact Option.some_ne_none _
      | notice notice =>
        have hwithout : σ.withoutChat.packets c = notice.packet env.unset ::
            (told.map (Told.packet env)).filter (¬IsChatPacket ·) := by
          refine (congrArg (List.filter (¬IsChatPacket ·)) htold).trans ?_
          exact List.filter_cons_of_pos (decide_eq_true (notice.not_isChatPacket env.unset))
        have henabled : σ.withoutChat.step env (.process c) ≠ none :=
          hrooms.process_enabled (by simp [hwithout])
        rw [ChatSystem.step, hwithout] at henabled
        intro hnone
        have hform1 := (σ.form c).packetProcess_toForm1 ((Told.notice notice).packet env)
        have hposts := (Form1.posts_packetProcess (notice.packet env.unset)).withoutChat
          (σ.form c).toForm1
        rw [hnone] at hform1
        have hnone1 : (σ.form c).toForm1.packetProcess (notice.packet env.unset) = none :=
          hform1.symm
        rw [hnone1] at hposts
        exact henabled (Option.map_eq_none_iff.mpr hposts)
    rw [ChatRooms.step, htold]
    exact fun hnone => hprocess (Option.map_eq_none_iff.mp hnone)

/-- No frame and no packet can be processed. -/
def Settled (env : Env δ) (σ : ChatRooms n m δ) : Prop :=
  ∀ c, σ.step env (.dispatch c) = none ∧ σ.step env (.process c) = none

theorem Invariant.quiet_of_settled (h : Invariant ids env past σ)
    (hrooms : ChatSystem.Invariant ids env.unset σ.withoutChat) (hids : Function.Injective ids)
    (hsettled : σ.Settled env) : σ.chatSystem.Quiet := by
  intro c
  constructor
  · by_contra hqueue
    exact h.dispatch_enabled hrooms hids hqueue (hsettled c).1
  · by_contra hpackets
    exact h.process_enabled hrooms hpackets (hsettled c).2

end

/-! ## Whole runs -/

/-- A click of a user, or a message that a user types -/
def IsPrompt : RoomAction n → Prop
  | .click .. | .chatSend .. => True
  | .dispatch _ | .process _ => False

instance : DecidablePred (IsPrompt (n := n))
  | .click .. | .chatSend .. => instDecidableTrue
  | .dispatch _ | .process _ => instDecidableFalse

section

variable {ids : Fin n → UserId} {past rest : History n m δ} {σ₀ σ₁ σ : ChatRooms n m δ}

/-- Without new clicks and messages every step lowers the weight. -/
theorem Start.weight_le (start : Start ids σ₀) (hids : Function.Injective ids) (env : Env δ)
    (run : Run (step env) σ₀ past σ₁) (settling : Run (step env) σ₁ rest σ)
    (unprompted : ∀ e ∈ rest, ¬IsPrompt e.act)
    (enters : ∀ e ∈ past ++ rest, e.pre.EntrySucceeds e.act)
    (closes : ∀ e ∈ past ++ rest, e.pre.SnapshotCloses e.act) :
    rest.length + σ.weight ≤ σ₁.weight ∧ ∃ past', Run (step env) σ₀ past' σ ∧
      (∀ e ∈ past', e.pre.EntrySucceeds e.act) ∧ ∀ e ∈ past', e.pre.SnapshotCloses e.act := by
  apply settling.length_le (C := fun e => ¬IsPrompt e.act ∧ e.pre.EntrySucceeds e.act ∧
    e.pre.SnapshotCloses e.act) weight
  · exact ⟨past, run, fun e he => enters e (List.mem_append_left _ he),
      fun e he => closes e (List.mem_append_left _ he)⟩
  · rintro σ a σ' ⟨past', run', enters', closes'⟩ hstep ⟨hprompt, hspace, hclose⟩
    have h := start.invariant_of_run hids env run' enters'
    have hrooms := start.rooms_invariant hids env run' enters' closes'
    refine ⟨⟨past' ++ [⟨σ, a, σ'⟩], run'.snoc hstep,
      List.forall_mem_append.mpr ⟨enters', List.forall_mem_singleton.mpr hspace⟩,
      List.forall_mem_append.mpr ⟨closes', List.forall_mem_singleton.mpr hclose⟩⟩, ?_⟩
    cases a with
    | click | chatSend => exact absurd trivial hprompt
    | dispatch c => exact h.weight_dispatch hrooms hids hstep hspace
    | process c => exact h.weight_process hrooms hstep
  · intro e he
    exact ⟨unprompted e he, enters e (List.mem_append_right _ he),
      closes e (List.mem_append_right _ he)⟩

end

end ChatRooms

end ChatServer.Client

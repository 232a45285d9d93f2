import Lightspeed.Lib.Framing
import Lightspeed.Bots.WorkflowIds
import Lightspeed.Channels.Inbound

/-!
# Conversation identities

A conversation is an account's chat, and a thread inside it where there is one. Its workflow id holds a
digest of the three, each behind its length; its key joins them by slashes; and the key by which
repeated messages are recognised joins them, with the message's own id, by a separator. The digest keeps
any two conversations apart. The two keys keep apart what neither reads like the other: the ids are the
provider's, and may hold a slash or the separator themselves.
-/

namespace Lightspeed.Channels

open Lightspeed.Bots (Uuid sampleUniverse)
open Lightspeed.Lib (CutLater append_cons_eq_iff frame flatMap_frame_inj)

/-! ## Identities -/

/-- The conversation a message belongs to: one account's chat, optionally a thread inside it. -/
structure ConversationRef where
  accountId : ChannelAccountId
  chatId : Text
  threadId : Option Text := none

/-- One provider message with the identity of the account that received it. -/
structure NormalizedInbound where
  provider : ChannelProvider
  accountId : ChannelAccountId
  inbound : ChannelInbound

def NormalizedInbound.conversation (message : NormalizedInbound) : ConversationRef where
  accountId := message.accountId
  chatId := message.inbound.chatId
  threadId := message.inbound.threadId

/-- The routing key of the conversation. -/
def ConversationRef.key (c : ConversationRef) : String :=
  match c.threadId with
  | some threadId => c.accountId.value ++ "/" ++ c.chatId.value ++ "/" ++ threadId.value
  | none => c.accountId.value ++ "/" ++ c.chatId.value

def conversationKeyDomain : String := "lightspeed.channels.conversation.v1"

/-- The bytes of a text. -/
def utf8 (text : String) : List UInt8 := text.toByteArray.data.toList

/-- What is hashed of a domain and the parts of an identity: each behind its length. -/
def framed (domain : String) (parts : List String) : List UInt8 :=
  ((domain :: parts).map utf8).flatMap frame

def framedDigest (sha256Hex : List UInt8 → String) (domain : String) (parts : List String) : String :=
  sha256Hex (framed domain parts)

/-- The parts of a conversation's digest: no thread is the empty one. -/
def ConversationRef.parts (c : ConversationRef) : List String :=
  [c.accountId.value, c.chatId.value, (c.threadId.map (·.value)).getD ""]

/-- Stable digest of the conversation, for ids that must not carry the chat id. -/
def ConversationRef.digest (sha256Hex : List UInt8 → String) (c : ConversationRef) : String :=
  framedDigest sha256Hex conversationKeyDomain c.parts

/-- The first `len` characters of a digest. -/
def truncate (digest : String) (len : Nat) : String := String.ofList (digest.toList.take len)

def conversationWorkflowId (sha256Hex : List UInt8 → String) (universeId : Uuid)
    (provider : ChannelProvider) (conversation : ConversationRef) : String :=
  universeId.text ++ "/chat-" ++ provider.value ++ "-" ++
    truncate (conversation.digest sha256Hex) 48

/-- The unit separator. -/
def keySeparator : Char := Char.ofNat 0x1f

/-- The thread's id, or the empty text. -/
def NormalizedInbound.thread (message : NormalizedInbound) : String :=
  (message.inbound.threadId.map (·.value)).getD ""

/-- Dedup key of an inbound message: provider, account, chat, thread, and the provider message id. -/
def channelInboundKey (message : NormalizedInbound) : String :=
  (String.singleton keySeparator).intercalate
    [message.provider.value, message.accountId.value, message.inbound.chatId.value, message.thread,
      message.inbound.messageId.value]

/-! ## Identities that read alike -/

/-- The key of `a` is that of `b` with the chat's id cut at a later slash, or without a thread at all
where `b` has one. -/
def ConversationRef.ReadsLike (a b : ConversationRef) : Prop :=
  match a.threadId, b.threadId with
  | some s, some t => CutLater '/' a.chatId.chars s.chars b.chatId.chars t.chars
  | none, some t => a.chatId.chars = b.chatId.chars ++ '/' :: t.chars
  | _, none => False

/-- The ids of `a` are those of `b` cut at a later separator: in one chat the thread's, else the
chat's. -/
def NormalizedInbound.ReadsLike (a b : NormalizedInbound) : Prop :=
  (a.inbound.chatId = b.inbound.chatId ∧
    CutLater keySeparator a.thread.toList a.inbound.messageId.chars
      b.thread.toList b.inbound.messageId.chars) ∨
  CutLater keySeparator a.inbound.chatId.chars
    (a.thread.toList ++ keySeparator :: a.inbound.messageId.chars)
    b.inbound.chatId.chars (b.thread.toList ++ keySeparator :: b.inbound.messageId.chars)

/-- The heads of the two digests are equal for equal parts only. -/
def DigestsApart (sha256Hex : List UInt8 → String) (a b : ConversationRef) : Prop :=
  truncate (a.digest sha256Hex) 48 = truncate (b.digest sha256Hex) 48 →
    framed conversationKeyDomain a.parts = framed conversationKeyDomain b.parts

variable {sha256Hex : List UInt8 → String} {u : Uuid} {provider : ChannelProvider}
  {accountId : ChannelAccountId} {lowercase : String → String} {a b : NormalizedInbound}
  {c d : ConversationRef} {x y sent received : ChannelInbound}

/-! ## Digests -/

theorem utf8_inj {s t : String} (h : utf8 s = utf8 t) : s = t :=
  String.toByteArray_inj.mp (ByteArray.ext (Array.toList_inj.mp h))

theorem length_utf8 (s : String) : (utf8 s).length = s.utf8ByteSize := rfl

theorem ChannelAccountId.sized (accountId : ChannelAccountId) :
    accountId.value.utf8ByteSize < 2 ^ 64 := by
  have hvalid := accountId.valid
  unfold Bots.validateBotName at hvalid
  split at hvalid
  · cases hvalid
  · split_ifs at hvalid with hlength
    unfold Bots.botIdMaxLen at hlength
    omega

/-- The parts of an identity have the lengths of machine words. -/
theorem ConversationRef.parts_sized (c : ConversationRef) :
    ∀ bytes ∈ (conversationKeyDomain :: c.parts).map utf8, bytes.length < 2 ^ 64 := by
  have hdomain : conversationKeyDomain.utf8ByteSize < 2 ^ 64 := by decide
  have hthread : ((c.threadId.map (·.value)).getD "").utf8ByteSize < 2 ^ 64 := by
    cases c.threadId with
    | none => decide
    | some thread => exact thread.sized
  intro bytes hbytes
  obtain ⟨part, hpart, rfl⟩ := List.mem_map.mp hbytes
  rw [length_utf8]
  unfold ConversationRef.parts at hpart
  simp only [List.mem_cons, List.not_mem_nil, or_false] at hpart
  rcases hpart with rfl | rfl | rfl | rfl
  · exact hdomain
  · exact c.accountId.sized
  · exact c.chatId.sized
  · exact hthread

/-- What is hashed says the parts. -/
theorem framed_inj (h : framed conversationKeyDomain c.parts = framed conversationKeyDomain d.parts) :
    c.parts = d.parts := by
  have hmap := flatMap_frame_inj c.parts_sized d.parts_sized (by simp [ConversationRef.parts]) h
  have hparts := List.map_injective_iff.mpr (fun s t => utf8_inj) hmap
  exact (List.cons.inj hparts).2

/-- Equal workflow ids hash equal parts. -/
theorem parts_eq_of_workflowId (hdigests : DigestsApart sha256Hex c d)
    (h : conversationWorkflowId sha256Hex u provider c =
      conversationWorkflowId sha256Hex u provider d) : c.parts = d.parts := by
  unfold conversationWorkflowId at h
  exact framed_inj (hdigests ((String.append_right_inj _).mp h))

/-! ## Keys -/

theorem key_toList : c.key.toList =
    c.accountId.value.toList ++ '/' :: (c.chatId.chars ++
      match c.threadId with
      | some thread => '/' :: thread.chars
      | none => []) := by
  have hslash : "/".toList = ['/'] := by decide
  unfold ConversationRef.key Text.chars
  cases c.threadId <;> simp [hslash]

theorem channelInboundKey_toList : (channelInboundKey a).toList =
    a.provider.value.toList ++ keySeparator :: (a.accountId.value.toList ++ keySeparator ::
      (a.inbound.chatId.chars ++ keySeparator :: (a.thread.toList ++ keySeparator ::
        a.inbound.messageId.chars))) := by
  unfold channelInboundKey Text.chars
  simp

/-- The threads of two conversations are equal where both chats and threads read the same. -/
theorem key_eq_iff (haccount : c.accountId = d.accountId) :
    c.key = d.key ↔
      (c.chatId = d.chatId ∧ c.threadId = d.threadId) ∨ c.ReadsLike d ∨ d.ReadsLike c := by
  have hkey : c.key = d.key ↔
      (c.chatId.chars ++ match c.threadId with
        | some thread => '/' :: thread.chars
        | none => []) =
      d.chatId.chars ++ match d.threadId with
        | some thread => '/' :: thread.chars
        | none => [] := by
    rw [← String.toList_inj, key_toList, key_toList, haccount]
    simp
  rw [hkey]
  have hchars : ∀ {s t : Text}, s.chars = t.chars ↔ s = t := fun {s t} =>
    ⟨Text.ext_chars, congrArg Text.chars⟩
  unfold ConversationRef.ReadsLike
  cases c.threadId with
  | none =>
    cases d.threadId with
    | none => simp [hchars]
    | some t => simp
  | some s =>
    cases d.threadId with
    | none => simp [eq_comm]
    | some t =>
      dsimp only
      rw [append_cons_eq_iff, hchars, hchars, Option.some.injEq]

/-- Two messages of one account have one dedup key exactly when their ids are the same, up to a thread
that is the empty text, or one's read like the other's. -/
theorem channelInboundKey_eq_iff (hprovider : a.provider = b.provider)
    (haccount : a.accountId = b.accountId) :
    channelInboundKey a = channelInboundKey b ↔
      (a.inbound.chatId = b.inbound.chatId ∧ a.thread = b.thread ∧
        a.inbound.messageId = b.inbound.messageId) ∨ a.ReadsLike b ∨ b.ReadsLike a := by
  have hids : channelInboundKey a = channelInboundKey b ↔
      a.inbound.chatId.chars ++ keySeparator :: (a.thread.toList ++ keySeparator ::
        a.inbound.messageId.chars) =
      b.inbound.chatId.chars ++ keySeparator :: (b.thread.toList ++ keySeparator ::
        b.inbound.messageId.chars) := by
    rw [← String.toList_inj, channelInboundKey_toList, channelInboundKey_toList, hprovider, haccount]
    simp
  have hchars : ∀ {s t : Text}, s.chars = t.chars ↔ s = t := fun {s t} =>
    ⟨Text.ext_chars, congrArg Text.chars⟩
  rw [hids, append_cons_eq_iff, append_cons_eq_iff, hchars, hchars, String.toList_inj]
  unfold NormalizedInbound.ReadsLike
  have hchat : b.inbound.chatId = a.inbound.chatId ↔ a.inbound.chatId = b.inbound.chatId := eq_comm
  rw [hchat]
  constructor
  · rintro (⟨hsame, ⟨hthread, hmessage⟩ | hcut | hcut⟩ | hcut | hcut)
    · exact .inl ⟨hsame, hthread, hmessage⟩
    · exact .inr (.inl (.inl ⟨hsame, hcut⟩))
    · exact .inr (.inr (.inl ⟨hsame, hcut⟩))
    · exact .inr (.inl (.inr hcut))
    · exact .inr (.inr (.inr hcut))
  · rintro (⟨hsame, hthread, hmessage⟩ | (⟨hsame, hcut⟩ | hcut) | ⟨hsame, hcut⟩ | hcut)
    · exact .inl ⟨hsame, .inl ⟨hthread, hmessage⟩⟩
    · exact .inl ⟨hsame, .inr (.inl hcut)⟩
    · exact .inr (.inl hcut)
    · exact .inl ⟨hsame, .inr (.inr hcut)⟩
    · exact .inr (.inr hcut)

/-- A message's thread is read back from its text, as no accepted thread is the empty one. -/
theorem threadId_eq_of_thread (hx : ∀ thread ∈ x.threadId, thread.chars ≠ [])
    (hy : ∀ thread ∈ y.threadId, thread.chars ≠ [])
    (h : (x.threadId.map (·.value)).getD "" = (y.threadId.map (·.value)).getD "") :
    x.threadId = y.threadId := by
  have hempty : "".toList = [] := rfl
  cases hs : x.threadId with
  | none =>
    cases ht : y.threadId with
    | none => rfl
    | some t =>
      rw [hs, ht] at h
      have hvalue : "" = t.value := h
      exact absurd (by rw [Text.chars, ← hvalue, hempty]) (hy t ht)
  | some s =>
    cases ht : y.threadId with
    | none =>
      rw [hs, ht] at h
      have hvalue : s.value = "" := h
      exact absurd (by rw [Text.chars, hvalue, hempty]) (hx s hs)
    | some t =>
      rw [hs, ht] at h
      have hvalue : s.value = t.value := h
      exact congrArg some (Text.ext_chars (congrArg String.toList hvalue))

theorem ConversationRef.not_readsLike_of_same (hchat : c.chatId = d.chatId) (hthread : c.threadId = d.threadId) :
    ¬ c.ReadsLike d := by
  unfold ConversationRef.ReadsLike
  rw [hchat, hthread]
  cases d.threadId with
  | none => exact id
  | some thread => exact fun hcut => (hcut.length_lt).false

theorem NormalizedInbound.not_readsLike_of_same (hchat : a.inbound.chatId = b.inbound.chatId)
    (hthread : a.thread = b.thread) : ¬ a.ReadsLike b := by
  unfold NormalizedInbound.ReadsLike
  rw [hchat, hthread]
  rintro (⟨-, hcut⟩ | hcut)
  · exact hcut.length_lt.false
  · exact hcut.length_lt.false

/-! ## Messages kept apart -/

/-- What keeps two messages of an account apart. -/
structure IdentitiesApart (sha256Hex : List UInt8 → String) (u : Uuid) (a b : NormalizedInbound) :
    Prop where
  workflows : conversationWorkflowId sha256Hex u a.provider a.conversation =
      conversationWorkflowId sha256Hex u b.provider b.conversation →
    a.inbound.chatId = b.inbound.chatId ∧ a.inbound.threadId = b.inbound.threadId
  keys : a.conversation.key = b.conversation.key →
    a.inbound.chatId = b.inbound.chatId ∧ a.inbound.threadId = b.inbound.threadId
  inbound : channelInboundKey a = channelInboundKey b →
    a.inbound.chatId = b.inbound.chatId ∧ a.inbound.threadId = b.inbound.threadId ∧
      a.inbound.messageId = b.inbound.messageId

/-- Neither the conversations nor the messages read like one another. -/
structure ReadApart (a b : NormalizedInbound) : Prop where
  conversation : ¬ a.conversation.ReadsLike b.conversation
  conversation' : ¬ b.conversation.ReadsLike a.conversation
  message : ¬ a.ReadsLike b
  message' : ¬ b.ReadsLike a

/-- Messages that are kept apart do not read like one another. -/
theorem IdentitiesApart.readApart (hprovider : a.provider = b.provider)
    (haccount : a.accountId = b.accountId) (h : IdentitiesApart sha256Hex u a b) : ReadApart a b := by
  have hkeys := key_eq_iff (c := a.conversation) (d := b.conversation) haccount
  have hinbounds := channelInboundKey_eq_iff hprovider haccount
  have htext : a.inbound.threadId = b.inbound.threadId → a.thread = b.thread := by
    intro hsame
    unfold NormalizedInbound.thread
    rw [hsame]
  refine ⟨fun hreads => ?_, fun hreads => ?_, fun hreads => ?_, fun hreads => ?_⟩
  · obtain ⟨hchat, hsame⟩ := h.keys (hkeys.mpr (.inr (.inl hreads)))
    exact ConversationRef.not_readsLike_of_same hchat hsame hreads
  · obtain ⟨hchat, hsame⟩ := h.keys (hkeys.mpr (.inr (.inr hreads)))
    exact ConversationRef.not_readsLike_of_same hchat.symm hsame.symm hreads
  · obtain ⟨hchat, hsame, -⟩ := h.inbound (hinbounds.mpr (.inr (.inl hreads)))
    exact NormalizedInbound.not_readsLike_of_same hchat (htext hsame) hreads
  · obtain ⟨hchat, hsame, -⟩ := h.inbound (hinbounds.mpr (.inr (.inr hreads)))
    exact NormalizedInbound.not_readsLike_of_same hchat.symm (htext hsame).symm hreads

/-- Accepted messages that do not read like one another are kept apart. -/
theorem ReadApart.identitiesApart (hprovider : a.provider = b.provider)
    (haccount : a.accountId = b.accountId)
    (hthread : a.thread = b.thread → a.inbound.threadId = b.inbound.threadId)
    (hdigests : DigestsApart sha256Hex a.conversation b.conversation) (h : ReadApart a b) :
    IdentitiesApart sha256Hex u a b := by
  refine ⟨fun hworkflows => ?_, fun hkey => ?_, fun hkey => ?_⟩
  · rw [hprovider] at hworkflows
    have hparts := parts_eq_of_workflowId hdigests hworkflows
    obtain ⟨-, hrest⟩ := List.cons.inj hparts
    obtain ⟨hchat, hrest⟩ := List.cons.inj hrest
    exact ⟨Text.ext_chars (congrArg String.toList hchat), hthread (List.cons.inj hrest).1⟩
  · have hkeys := key_eq_iff (c := a.conversation) (d := b.conversation) haccount
    exact (hkeys.mp hkey).resolve_right (not_or.mpr ⟨h.conversation, h.conversation'⟩)
  · have hinbounds := channelInboundKey_eq_iff hprovider haccount
    obtain ⟨hchat, hsame, hmessage⟩ :=
      (hinbounds.mp hkey).resolve_right (not_or.mpr ⟨h.message, h.message'⟩)
    exact ⟨hchat, hthread hsame, hmessage⟩

/-- Two accepted messages of one account are kept apart exactly when neither the conversations nor the
messages read like one another. -/
theorem identities_apart_iff (hx : normalizeInbound lowercase sent = .ok x)
    (hy : normalizeInbound lowercase received = .ok y)
    (hdigests : DigestsApart sha256Hex (NormalizedInbound.mk provider accountId x).conversation
      (NormalizedInbound.mk provider accountId y).conversation) :
    IdentitiesApart sha256Hex u ⟨provider, accountId, x⟩ ⟨provider, accountId, y⟩ ↔
      ReadApart ⟨provider, accountId, x⟩ ⟨provider, accountId, y⟩ := by
  have hthread := threadId_eq_of_thread (normalizeInbound_eq_ok hx).2 (normalizeInbound_eq_ok hy).2
  exact ⟨fun h => h.readApart rfl rfl, fun h => h.identitiesApart rfl rfl hthread hdigests⟩

/-! ## Samples -/

def sampleProvider : ChannelProvider := ⟨"telegram", by decide +kernel⟩

def sampleAccount : ChannelAccountId := ⟨"primary", by decide +kernel⟩

/-- A message of a text only. -/
def sampleInbound (chatId : Text) (threadId : Option Text) (messageId : Text) : ChannelInbound where
  messageId := messageId
  chatId := chatId
  threadId := threadId
  senderId := ⟨"7", by decide⟩
  senderName := ⟨"Lukas", by decide⟩
  timestampMs := 1700000000000
  text := "hello"
  isDirect := true

/-- A message in the thread 9 of the chat 123, and one in the chat itself. -/
def threadMessage : ChannelInbound :=
  sampleInbound ⟨"123", by decide⟩ (some ⟨"9", by decide⟩) ⟨"42", by decide⟩

def chatMessage : ChannelInbound := sampleInbound ⟨"123", by decide⟩ none ⟨"42", by decide⟩

/-- The hash of the two conversations. -/
def sampleSha256Hex (bytes : List UInt8) : String :=
  if bytes = framed conversationKeyDomain ["primary", "123", "9"] then
    "16e5ba8ee9fd8481a9b698f797c53e59df4590cc4173db6af05f2799f053d65e"
  else if bytes = framed conversationKeyDomain ["primary", "123", ""] then
    "1d6d3f5ddfddf011b9e6464594f43b7556bd980de38ac94d421c34278a504ca9"
  else ""

/-- The chat and its thread are kept apart. -/
theorem identities_apart_iff_thread :
    IdentitiesApart sampleSha256Hex sampleUniverse ⟨sampleProvider, sampleAccount, threadMessage⟩
        ⟨sampleProvider, sampleAccount, chatMessage⟩ ↔
      ReadApart ⟨sampleProvider, sampleAccount, threadMessage⟩
        ⟨sampleProvider, sampleAccount, chatMessage⟩ :=
  identities_apart_iff
    (show normalizeInbound String.toLower threadMessage = .ok threadMessage by decide +kernel)
    (show normalizeInbound String.toLower chatMessage = .ok chatMessage by decide +kernel)
    (fun heads => absurd heads (by decide +kernel))

/-- The chat 123/9 and the thread 9 of the chat 123 have one key. Two messages of the chat 123 have one
dedup key where the one's thread, or else the other's id, holds the separator. -/
theorem identities_shared :
    normalizeInbound String.toLower threadMessage = .ok threadMessage ∧
    normalizeInbound String.toLower (sampleInbound ⟨"123/9", by decide⟩ none ⟨"42", by decide⟩) =
      .ok (sampleInbound ⟨"123/9", by decide⟩ none ⟨"42", by decide⟩) ∧
    (NormalizedInbound.mk sampleProvider sampleAccount threadMessage).conversation.key =
      (NormalizedInbound.mk sampleProvider sampleAccount
        (sampleInbound ⟨"123/9", by decide⟩ none ⟨"42", by decide⟩)).conversation.key ∧
    threadMessage.chatId ≠ (sampleInbound ⟨"123/9", by decide⟩ none ⟨"42", by decide⟩).chatId ∧
    channelInboundKey ⟨sampleProvider, sampleAccount,
        sampleInbound ⟨"123", by decide⟩ (some ⟨"9\x1fa", by decide⟩) ⟨"b", by decide⟩⟩ =
      channelInboundKey ⟨sampleProvider, sampleAccount,
        sampleInbound ⟨"123", by decide⟩ (some ⟨"9", by decide⟩) ⟨"a\x1fb", by decide⟩⟩ := by
  decide +kernel

end Lightspeed.Channels

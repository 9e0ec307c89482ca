import Mathlib.Data.List.Chain
import Mathlib.Data.List.Nodup
import Mathlib.Logic.Function.Basic
import Xiaomaolv.Lib.Machine
import Xiaomaolv.Loop.Data

/-!
# When the bot speaks in a group

A message of a group is answered, observed or ignored by the signals that it gives. The bot's aliases in a chat and
its last response there are in memory until the process ends.

* `messageMentionsBot`; **`messageMentionsBot_iff`**: a mention is the bot's handle where it stands alone.
* `evaluateGroupDecision`, `processGroupMessage`: the decision on a message, and what is learned from it.
* `GroupWorld.exec`: a message that reaches the gate, or a restart.
* **`responses_paced`**: between two responses of a chat lies the cooldown, unless the later one was asked for.
* **`aliases_kept`**: a chat has 24 aliases at most, and none is forgotten while the process runs.
* **`chats_apart`**: what happens in one chat is what would happen without the others.
-/

namespace Xiaomaolv

/-! ## Mentions -/

/-- `is_mention_boundary`; a byte that is not ASCII bounds a mention, as the character that it is of. -/
def isMentionBoundary : Option Char → Bool
  | none => true
  | some c => !(c.isAlphanum || c = '_')

/-- The loop of `message_mentions_bot`, past the characters of a match that is not bounded. -/
def mentionedFrom (needle : List Char) : Nat → Option Char → List Char → Bool
  | _, _, [] => false
  | skip + 1, _, c :: hay => mentionedFrom needle skip (some c) hay
  | 0, before, c :: hay =>
    if needle <+: c :: hay then
      isMentionBoundary before && isMentionBoundary ((c :: hay).drop needle.length).head? ||
        mentionedFrom needle (needle.length - 1) (some c) hay
    else mentionedFrom needle 0 (some c) hay

/-- The bot's name as it stands behind the `@` of a mention. -/
def mentionName (botUsername : String) : List Char :=
  (toAsciiLowercase (String.ofList ((trim botUsername).toList.dropWhile (· = '@')))).toList

def messageMentionsBot (text botUsername : String) : Bool :=
  !(mentionName botUsername).isEmpty &&
    mentionedFrom ('@' :: mentionName botUsername) 0 none (toAsciiLowercase text).toList

/-- The handle stands in the text, between boundaries. -/
def Mentioned (needle : List Char) (before : Option Char) (hay : List Char) : Prop :=
  ∃ a b, hay = a ++ needle ++ b ∧ isMentionBoundary (a.getLast?.or before) = true ∧ isMentionBoundary b.head? = true

theorem mentioned_cons {needle hay : List Char} {before : Option Char} {c : Char} :
    Mentioned needle before (c :: hay) ↔
      (needle <+: c :: hay ∧ isMentionBoundary before = true ∧
        isMentionBoundary ((c :: hay).drop needle.length).head? = true) ∨ Mentioned needle (some c) hay := by
  constructor
  · rintro ⟨a, b, hay', hbefore, hafter⟩
    cases a with
    | nil =>
      refine .inl ⟨⟨b, hay'.symm⟩, hbefore, ?_⟩
      rwa [hay', List.nil_append, List.drop_left]
    | cons d a =>
      obtain ⟨rfl, rfl⟩ := List.cons.inj hay'
      refine .inr ⟨a, b, rfl, ?_, hafter⟩
      cases a with
      | nil => exact hbefore
      | cons e a => simpa [List.getLast?_cons] using hbefore
  · rintro (⟨⟨b, hb⟩, hbefore, hafter⟩ | ⟨a, b, rfl, hbefore, hafter⟩)
    · rw [← hb, List.drop_left] at hafter
      exact ⟨[], b, hb.symm, hbefore, hafter⟩
    · refine ⟨c :: a, b, rfl, ?_, hafter⟩
      cases a with
      | nil => exact hbefore
      | cons e a => simpa [List.getLast?_cons] using hbefore

/-- No handle begins within another, as the sign that it begins with is nowhere else in it. -/
theorem mentioned_skip {name rest hay : List Char} {before : Option Char} (hname : '@' ∉ rest) (hhay : rest <+: hay) :
    Mentioned ('@' :: name) before hay ↔
      Mentioned ('@' :: name) (rest.getLast?.or before) (hay.drop rest.length) := by
  induction rest generalizing hay before with
  | nil => rfl
  | cons c rest ih =>
    obtain ⟨tail, rfl⟩ := hhay
    have hc : ¬ '@' :: name <+: c :: (rest ++ tail) := by
      rintro ⟨b, hb⟩
      rw [← (List.cons.inj hb).1] at hname
      exact hname List.mem_cons_self
    rw [List.cons_append, mentioned_cons, or_iff_right fun h => hc h.1,
      ih (mt (List.mem_cons_of_mem c) hname) ⟨tail, rfl⟩, List.length_cons, List.drop_succ_cons]
    cases rest with
    | nil => rfl
    | cons d rest => simp [List.getLast?_cons]

theorem mentionedFrom_iff {name : List Char} (hname : '@' ∉ name) (skip : Nat) (before : Option Char)
    (hay : List Char) : mentionedFrom ('@' :: name) skip before hay = true ↔
      Mentioned ('@' :: name) ((hay.take skip).getLast?.or before) (hay.drop skip) := by
  induction hay generalizing skip before with
  | nil => simp [mentionedFrom, Mentioned]
  | cons c hay ih =>
    cases skip with
    | succ skip =>
      rw [mentionedFrom, ih, List.take_succ_cons, List.drop_succ_cons, List.getLast?_cons]
      cases (hay.take skip).getLast? <;> rfl
    | zero =>
      rw [mentionedFrom, List.take_zero, List.drop_zero, List.getLast?_nil, Option.none_or, mentioned_cons]
      by_cases hit : '@' :: name <+: c :: hay
      · have hrest : name <+: hay := (List.cons_prefix_cons.mp hit).2
        rw [if_pos hit, Bool.or_eq_true, Bool.and_eq_true, ih, mentioned_skip hname hrest, List.length_cons,
          Nat.add_sub_cancel, ← List.prefix_iff_eq_take.mp hrest]
        exact or_congr_left (and_iff_right hit).symm
      · rw [if_neg hit, ih, List.take_zero, List.drop_zero, List.getLast?_nil, Option.none_or]
        exact (or_iff_right fun h => hit h.1).symm

/-- **A message mentions the bot** if and only if the bot's handle stands in it, in any case of its letters, where
no letter, digit or underscore touches it. -/
theorem messageMentionsBot_iff {text botUsername : String} (h : '@' ∉ mentionName botUsername) :
    messageMentionsBot text botUsername = true ↔ mentionName botUsername ≠ [] ∧
      Mentioned ('@' :: mentionName botUsername) none (toAsciiLowercase text).toList := by
  rw [messageMentionsBot, Bool.and_eq_true, mentionedFrom_iff h, Bool.not_eq_true', List.isEmpty_eq_false_iff,
    List.take_zero, List.getLast?_nil, Option.none_or, List.drop_zero]

theorem messageMentionsBot_sample :
    Mentioned ('@' :: mentionName " @Mao_Bot") none (toAsciiLowercase "a@mao_bot, @MAO_BOT!").toList :=
  ((messageMentionsBot_iff (by decide +kernel)).mp (by decide +kernel)).2

/-! ## The decision -/

inductive TelegramGroupTriggerMode where
  | strict | smart
  deriving DecidableEq

structure TelegramGroupTriggerSettings where
  mode : TelegramGroupTriggerMode
  followupWindowSecs : Nat
  cooldownSecs : Nat
  ruleMinScore : Nat

inductive GroupDecisionKind where
  | respond | observeOnly | ignore
  deriving DecidableEq

structure GroupSignalInput where
  mentioned : Bool
  repliedToBot : Bool
  recentBotParticipation : Bool
  aliasHit : Bool
  vocativeAliasHit : Bool
  hasQuestionMarker : Bool
  pointsToOtherBot : Bool
  lowSignalNoise : Bool
  cooldownActive : Bool

structure GroupDecision where
  kind : GroupDecisionKind
  score : Int
  reasons : List String

def evaluateGroupDecision (mode : TelegramGroupTriggerMode) (input : GroupSignalInput) (minScore : Nat) :
    GroupDecision :=
  if input.mentioned then ⟨.respond, 100, ["explicit_mention"]⟩
  else if input.repliedToBot then ⟨.respond, 100, ["reply_to_bot"]⟩
  else if mode = .strict then ⟨.ignore, 0, ["strict_no_explicit_trigger"]⟩
  else
    let signals := [(input.recentBotParticipation, (30 : Int), "recent_bot_participation"),
      (input.aliasHit, 25, "alias_hit"), (input.vocativeAliasHit, 75, "vocative_alias_hit"),
      (input.hasQuestionMarker, 20, "question_marker"), (input.pointsToOtherBot, -35, "points_to_other_bot"),
      (input.lowSignalNoise, -25, "low_signal_noise")].filter (·.1)
    let score := signals.foldl (fun score signal => score + signal.2.1) 0
    let reasons := signals.map (·.2.2)
    let min : Int := max 1 (minScore.min 100)
    let observeMin := max (min / 2) 30
    let kind := if min ≤ score then .respond else if observeMin ≤ score then .observeOnly else .ignore
    if input.cooldownActive ∧ kind = .respond ∧ ¬ input.vocativeAliasHit then
      ⟨.observeOnly, score, reasons ++ ["cooldown_active"]⟩
    else ⟨kind, score, reasons⟩

/-- A message that asks for a response: a mention, a reply to the bot, or a call by one of its aliases. -/
def GroupSignalInput.asks (mode : TelegramGroupTriggerMode) (input : GroupSignalInput) : Bool :=
  input.mentioned || input.repliedToBot || (mode = .smart && input.vocativeAliasHit)

theorem asks_of_respond {mode : TelegramGroupTriggerMode} {input : GroupSignalInput} {minScore : Nat}
    (h : (evaluateGroupDecision mode input minScore).kind = .respond) :
    input.asks mode = true ∨ mode = .smart ∧ input.cooldownActive = false := by
  rw [evaluateGroupDecision] at h
  rw [GroupSignalInput.asks]
  cases hmentioned : input.mentioned
  · cases hreplied : input.repliedToBot
    · cases mode with
      | strict => simp [hmentioned, hreplied] at h
      | smart =>
        cases hvocative : input.vocativeAliasHit
        · cases hcooldown : input.cooldownActive
          · exact .inr ⟨rfl, rfl⟩
          · simp only [hmentioned, hreplied, hvocative, hcooldown] at h
            split_ifs at h <;> simp_all
        · exact .inl rfl
    · exact .inl rfl
  · exact .inl rfl

/-! ## What is kept of a chat -/

structure TelegramGroupRuntimeState where
  lastBotResponseUnixByChat : Int → Option Nat := fun _ => none
  learnedAliasesByChat : Int → List String := fun _ => []
  loadedAliasesChats : Int → Bool := fun _ => false

/-- What the text of a message is asked, and what a stored alias is brought to. -/
structure GroupTexts where
  containsAnyAlias : String → List String → Bool
  mentionsOtherHandle : String → String → Bool
  extractDynamicAliasCandidates : String → String → List String
  vocativeAliasCandidate : String → String → List String → Option String
  normalizeAliasToken : String → String

structure GroupMessage where
  chatId : Int
  text : String
  botUsername : String
  repliedToBot : Bool

/-- The loops of `learn_group_alias_tokens` and of the bootstrap; once they find 24 aliases they add none. -/
def insertAliases (known tokens : List String) : List String :=
  tokens.foldl (fun known token => if 24 ≤ known.length ∨ token ∈ known then known else known ++ [token]) known

def messageHasQuestionMarker (text : String) : Bool :=
  text.toList.any (fun c => c = '?' || c = '？') ||
    let tail := (trim text).toList.reverse.dropWhile fun c =>
      "，,。.!！？?;；:：)）]】\x7d>》\"'`~|/\\ ".toList.contains c
    tail.head? = some '吗' || tail.head? = some '么'

def isLowSignalGroupNoise (text : String) : Bool := charCount (trim text) ≤ 2

section Gate

variable (texts : GroupTexts) (settings : TelegramGroupTriggerSettings)

def learnGroupAliasTokens (chatId : Int) (tokens : List String) (state : TelegramGroupRuntimeState) :
    TelegramGroupRuntimeState :=
  let known := insertAliases (state.learnedAliasesByChat chatId) tokens
  { state with learnedAliasesByChat := Function.update state.learnedAliasesByChat chatId known }

def recordBotResponse (chatId : Int) (now : Nat) (state : TelegramGroupRuntimeState) : TelegramGroupRuntimeState :=
  { state with lastBotResponseUnixByChat := Function.update state.lastBotResponseUnixByChat chatId (some now) }

/-- `bootstrap_group_runtime_state`; `stored` is what the store answers, and nothing if it fails. -/
def bootstrapGroupRuntimeState (chatId : Int) (stored : Option (List String)) (state : TelegramGroupRuntimeState) :
    TelegramGroupRuntimeState :=
  let tokens := if state.loadedAliasesChats chatId then [] else stored.getD []
  { learnGroupAliasTokens chatId ((tokens.map texts.normalizeAliasToken).filter (!·.isEmpty)) state with
    loadedAliasesChats := Function.update state.loadedAliasesChats chatId true }

/-- `process_group_message` up to the decision: the signals, the decision and the state. -/
def processGroupMessage (m : GroupMessage) (stored : Option (List String)) (now : Nat)
    (state : TelegramGroupRuntimeState) : GroupSignalInput × GroupDecision × TelegramGroupRuntimeState :=
  let state := bootstrapGroupRuntimeState texts m.chatId stored state
  let named := !m.botUsername.isEmpty
  let mentioned := named && messageMentionsBot m.text m.botUsername
  let question := messageHasQuestionMarker m.text
  let state := learnGroupAliasTokens m.chatId (if (mentioned || m.repliedToBot) && named then
    texts.extractDynamicAliasCandidates m.text m.botUsername else []) state
  let elapsed := (state.lastBotResponseUnixByChat m.chatId).map (now - ·)
  let learned := state.learnedAliasesByChat m.chatId
  let other := named && texts.mentionsOtherHandle m.text m.botUsername
  let candidate := if named then texts.vocativeAliasCandidate m.text m.botUsername learned else none
  let known := candidate.any learned.contains
  let vocative := settings.mode = .smart && !other && candidate.isSome && (known || question)
  let unknown := if vocative && !known then candidate.toList else []
  let input : GroupSignalInput :=
    { mentioned, repliedToBot := m.repliedToBot
      recentBotParticipation := elapsed.any (· ≤ settings.followupWindowSecs)
      aliasHit := texts.containsAnyAlias m.text (learned ++ unknown)
      vocativeAliasHit := vocative, hasQuestionMarker := question, pointsToOtherBot := other
      lowSignalNoise := isLowSignalGroupNoise m.text
      cooldownActive := elapsed.any (· ≤ settings.cooldownSecs) }
  (input, evaluateGroupDecision settings.mode input settings.ruleMinScore,
    learnGroupAliasTokens m.chatId unknown state)

/-! ## The messages of a process -/

/-- A message at the gate, with what the store has of its chat, the clock, and the clock when a reply to it has been
sent, if none fails. -/
structure GroupArrival where
  message : GroupMessage
  stored : Option (List String)
  now : Nat
  sent : Option Nat

inductive GroupEvent where
  | message (arrival : GroupArrival)
  | restart

/-- A response that was recorded. -/
structure GroupResponse where
  chatId : Int
  signals : GroupSignalInput
  decidedAt : Nat
  recordedAt : Nat

/-- The state of the process, and its responses since it started, the latest last. -/
structure GroupWorld where
  state : TelegramGroupRuntimeState := {}
  responses : List GroupResponse := []

/-- `process_telegram_update` from the gate on. -/
def GroupWorld.exec (w : GroupWorld) : GroupEvent → GroupWorld
  | .restart => {}
  | .message ⟨m, stored, now, sent⟩ =>
    let (signals, decision, state) := processGroupMessage texts settings m stored now w.state
    match decision.kind, sent with
    | .respond, some time =>
      ⟨recordBotResponse m.chatId time state, w.responses ++ [⟨m.chatId, signals, now, time⟩]⟩
    | _, _ => ⟨state, w.responses⟩

/-- A message is answered and the response recorded, or none is recorded. -/
theorem exec_message (w : GroupWorld) (a : GroupArrival) :
    ∃ r, processGroupMessage texts settings a.message a.stored a.now w.state = r ∧
      ((∃ time, r.2.1.kind = .respond ∧ w.exec texts settings (.message a) =
          ⟨recordBotResponse a.message.chatId time r.2.2, w.responses ++ [⟨a.message.chatId, r.1, a.now, time⟩]⟩) ∨
        w.exec texts settings (.message a) = ⟨r.2.2, w.responses⟩) := by
  obtain ⟨m, stored, now, sent⟩ := a
  refine ⟨_, rfl, ?_⟩
  simp only [GroupWorld.exec]
  split
  · rename_i time hkind
    exact .inl ⟨time, hkind, rfl⟩
  · exact .inr rfl

variable {texts settings}

/-! ## The cooldown -/

namespace GroupWorld

/-- The responses recorded in a chat since the process started. -/
def responsesIn (w : GroupWorld) (chatId : Int) : List GroupResponse := w.responses.filter (·.chatId = chatId)

theorem responsesIn_concat (state : TelegramGroupRuntimeState) (rs : List GroupResponse) (r : GroupResponse)
    (chatId : Int) : responsesIn ⟨state, rs ++ [r]⟩ chatId =
      responsesIn ⟨state, rs⟩ chatId ++ if r.chatId = chatId then [r] else [] := by
  rw [responsesIn, List.filter_append, List.filter_singleton]
  by_cases hchat : r.chatId = chatId
  · rw [decide_eq_true hchat, if_pos hchat]
    rfl
  · rw [decide_eq_false hchat, if_neg hchat]
    rfl

variable (settings) in
/-- What nothing asked for comes in the smart mode only, and when the cooldown after the last response is over. -/
structure Paced (w : GroupWorld) (chatId : Int) : Prop where
  smart : ∀ r ∈ w.responsesIn chatId, r.signals.asks settings.mode = true ∨ settings.mode = .smart
  apart : (w.responsesIn chatId).IsChain fun r r' =>
    r'.signals.asks settings.mode = true ∨ r.recordedAt + settings.cooldownSecs < r'.decidedAt
  last : w.state.lastBotResponseUnixByChat chatId = (w.responsesIn chatId).getLast?.map (·.recordedAt)

theorem Paced.exec {w : GroupWorld} {chatId : Int} (h : w.Paced settings chatId) (e : GroupEvent) :
    (w.exec texts settings e).Paced settings chatId := by
  cases e with
  | restart => exact ⟨fun _ hr => absurd hr List.not_mem_nil, List.IsChain.nil, rfl⟩
  | message a =>
    obtain ⟨r, hr, ⟨time, hkind, he⟩ | he⟩ := exec_message texts settings w a
    · rw [he]
      have hlast : r.2.2.lastBotResponseUnixByChat = w.state.lastBotResponseUnixByChat := by
        rw [← hr]
        rfl
      by_cases hchat : a.message.chatId = chatId
      · have hcooldown : r.1.cooldownActive =
            ((w.state.lastBotResponseUnixByChat chatId).map (a.now - ·)).any (· ≤ settings.cooldownSecs) := by
          rw [← hr, ← hchat]
          rfl
        have hasks : r.1.asks settings.mode = true ∨ settings.mode = .smart ∧ r.1.cooldownActive = false := by
          rw [← hr] at hkind ⊢
          exact asks_of_respond hkind
        refine ⟨?_, ?_, ?_⟩
        · rw [responsesIn_concat, if_pos hchat]
          intro r' hr'
          rcases List.mem_append.mp hr' with hr' | hr'
          · exact h.smart r' hr'
          · rw [List.mem_singleton.mp hr']
            exact hasks.imp_right And.left
        · rw [responsesIn_concat, if_pos hchat, List.isChain_append]
          refine ⟨h.apart, List.isChain_singleton _, fun last hl r' hr' => ?_⟩
          rw [List.head?_cons, Option.mem_some_iff] at hr'
          rw [← hr']
          refine hasks.imp_right fun hquiet => ?_
          have hover := hquiet.2
          rw [hcooldown, h.last, show (w.responsesIn chatId).getLast? = some last from hl] at hover
          simp only [Option.map_some, Option.any_some, decide_eq_false_iff_not] at hover
          change last.recordedAt + settings.cooldownSecs < a.now
          omega
        · rw [responsesIn_concat, if_pos hchat, List.getLast?_concat, recordBotResponse, hchat]
          exact Function.update_self _ _ _
      · have hin : ∀ state, responsesIn ⟨state, w.responses ++ [⟨a.message.chatId, r.1, a.now, time⟩]⟩ chatId =
            w.responsesIn chatId := by
          intro state
          rw [responsesIn_concat, if_neg hchat, List.append_nil]
          rfl
        refine ⟨?_, ?_, ?_⟩
        · rw [hin]
          exact h.smart
        · rw [hin]
          exact h.apart
        · rw [hin, ← h.last, ← hlast]
          exact Function.update_of_ne (Ne.symm hchat) _ _
    · rw [he, ← hr]
      exact ⟨h.smart, h.apart, h.last⟩

end GroupWorld

/-- **The bot's responses are paced**: in every run, of two responses to a chat, one after the other, the later was
asked for, or comes more than the cooldown after the earlier. -/
theorem responses_paced (texts : GroupTexts) (settings : TelegramGroupTriggerSettings) (events : List GroupEvent)
    (chatId : Int) : (Machine.run (GroupWorld.exec texts settings) {} events).Paced settings chatId :=
  Machine.run_invariant' (I := fun w => GroupWorld.Paced settings w chatId) (fun _ e h => h.exec e)
    ⟨fun _ hr => absurd hr List.not_mem_nil, List.IsChain.nil, rfl⟩

/-! ## The aliases of a chat -/

theorem insertAliases_append (known tokens more : List String) :
    insertAliases (insertAliases known tokens) more = insertAliases known (tokens ++ more) :=
  List.foldl_append.symm

theorem subset_insertAliases (known tokens : List String) : known ⊆ insertAliases known tokens := by
  induction tokens generalizing known with
  | nil => exact List.Subset.refl known
  | cons token tokens ih =>
    refine List.Subset.trans ?_ (ih _)
    dsimp only
    split_ifs
    · exact List.Subset.refl known
    · exact List.subset_append_left known _

theorem insertAliases_bounded {known : List String} (tokens : List String) (h : known.length ≤ 24 ∧ known.Nodup) :
    (insertAliases known tokens).length ≤ 24 ∧ (insertAliases known tokens).Nodup := by
  induction tokens generalizing known with
  | nil => exact h
  | cons token tokens ih =>
    refine ih ?_
    dsimp only
    split_ifs with hfull
    · exact h
    · rw [not_or, not_le] at hfull
      refine ⟨?_, List.nodup_append_comm.mpr (List.nodup_cons.mpr ⟨hfull.2, h.2⟩)⟩
      rw [List.length_append, List.length_singleton]
      exact hfull.1

variable (texts settings) in
/-- A message inserts aliases into its chat. -/
theorem exec_aliases (w : GroupWorld) (a : GroupArrival) :
    ∃ tokens, (w.exec texts settings (.message a)).state.learnedAliasesByChat =
      Function.update w.state.learnedAliasesByChat a.message.chatId
        (insertAliases (w.state.learnedAliasesByChat a.message.chatId) tokens) := by
  have hprocess : ∃ tokens, (processGroupMessage texts settings a.message a.stored a.now
      w.state).2.2.learnedAliasesByChat = Function.update w.state.learnedAliasesByChat a.message.chatId
        (insertAliases (w.state.learnedAliasesByChat a.message.chatId) tokens) := by
    simp only [processGroupMessage, bootstrapGroupRuntimeState, learnGroupAliasTokens, Function.update_self,
      Function.update_idem, insertAliases_append]
    exact ⟨_, rfl⟩
  obtain ⟨r, rfl, ⟨time, -, he⟩ | he⟩ := exec_message texts settings w a
  · rw [he]
    exact hprocess
  · rw [he]
    exact hprocess

/-- Every chat has 24 aliases at most, each once. -/
def GroupWorld.Bounded (w : GroupWorld) : Prop :=
  ∀ chatId, (w.state.learnedAliasesByChat chatId).length ≤ 24 ∧ (w.state.learnedAliasesByChat chatId).Nodup

theorem GroupWorld.Bounded.exec {w : GroupWorld} (h : w.Bounded) (e : GroupEvent) :
    (w.exec texts settings e).Bounded := by
  cases e with
  | restart => exact fun _ => ⟨Nat.zero_le _, List.nodup_nil⟩
  | message a =>
    intro chatId
    obtain ⟨tokens, he⟩ := exec_aliases texts settings w a
    rw [he, Function.update_apply]
    split_ifs
    · exact insertAliases_bounded tokens (h _)
    · exact h chatId

theorem subset_run (w : GroupWorld) (arrivals : List GroupArrival) (chatId : Int) :
    w.state.learnedAliasesByChat chatId ⊆ (Machine.run (GroupWorld.exec texts settings) w
      (arrivals.map .message)).state.learnedAliasesByChat chatId := by
  induction arrivals generalizing w with
  | nil => exact List.Subset.refl _
  | cons a arrivals ih =>
    refine List.Subset.trans ?_ (ih _)
    obtain ⟨tokens, he⟩ := exec_aliases texts settings w a
    rw [he, Function.update_apply]
    split_ifs with hchat
    · rw [hchat]
      exact subset_insertAliases _ tokens
    · exact List.Subset.refl _

/-- **A chat has 24 aliases at most**, each once, **and none is forgotten** while the process runs. -/
theorem aliases_kept (texts : GroupTexts) (settings : TelegramGroupTriggerSettings) (events : List GroupEvent)
    (arrivals : List GroupArrival) :
    let w := Machine.run (GroupWorld.exec texts settings) {} events
    let w' := Machine.run (GroupWorld.exec texts settings) w (arrivals.map .message)
    w'.Bounded ∧ ∀ chatId, w.state.learnedAliasesByChat chatId ⊆ w'.state.learnedAliasesByChat chatId := by
  have hstart : GroupWorld.Bounded {} := fun _ => ⟨Nat.zero_le _, List.nodup_nil⟩
  have hrun : (Machine.run (GroupWorld.exec texts settings) {} events).Bounded :=
    Machine.run_invariant' (fun _ e h => h.exec e) hstart
  exact ⟨Machine.run_invariant' (fun _ e h => h.exec e) hrun, subset_run _ arrivals⟩

/-! ## Chats apart -/

/-- What two processes have of a chat is the same. -/
structure SameChat (chatId : Int) (w w' : GroupWorld) : Prop where
  last : w.state.lastBotResponseUnixByChat chatId = w'.state.lastBotResponseUnixByChat chatId
  learned : w.state.learnedAliasesByChat chatId = w'.state.learnedAliasesByChat chatId
  loaded : w.state.loadedAliasesChats chatId = w'.state.loadedAliasesChats chatId
  responses : w.responsesIn chatId = w'.responsesIn chatId

/-- A restart, or a message of the chat. -/
def GroupEvent.concerns (chatId : Int) : GroupEvent → Bool
  | .restart => true
  | .message a => a.message.chatId = chatId

theorem SameChat.refl (chatId : Int) (w : GroupWorld) : SameChat chatId w w := ⟨rfl, rfl, rfl, rfl⟩

/-- A message of another chat. -/
theorem SameChat.other {chatId : Int} {w w' : GroupWorld} (h : SameChat chatId w w') {a : GroupArrival}
    (ha : a.message.chatId ≠ chatId) : SameChat chatId (w.exec texts settings (.message a)) w' := by
  have hne : chatId ≠ a.message.chatId := ha.symm
  have hlearned : (w.exec texts settings (.message a)).state.learnedAliasesByChat chatId =
      w'.state.learnedAliasesByChat chatId := by
    obtain ⟨tokens, he⟩ := exec_aliases texts settings w a
    rw [he, Function.update_of_ne hne, h.learned]
  obtain ⟨r, hr, ⟨time, -, he⟩ | he⟩ := exec_message texts settings w a
  · rw [he] at hlearned ⊢
    refine ⟨?_, hlearned, ?_, ?_⟩
    · refine Eq.trans (Function.update_of_ne hne _ _) ?_
      rw [← hr]
      exact h.last
    · rw [← hr]
      exact (Function.update_of_ne hne _ _).trans h.loaded
    · rw [GroupWorld.responsesIn_concat, if_neg ha, List.append_nil]
      exact h.responses
  · rw [he] at hlearned ⊢
    refine ⟨?_, hlearned, ?_, h.responses⟩
    · rw [← hr]
      exact h.last
    · rw [← hr]
      exact (Function.update_of_ne hne _ _).trans h.loaded

variable (texts settings) in
/-- What the gate makes of a message is read off its chat. -/
theorem SameChat.process {w w' : GroupWorld} {a : GroupArrival} (h : SameChat a.message.chatId w w') :
    (processGroupMessage texts settings a.message a.stored a.now w.state).1 =
      (processGroupMessage texts settings a.message a.stored a.now w'.state).1 ∧
    (processGroupMessage texts settings a.message a.stored a.now w.state).2.2.learnedAliasesByChat a.message.chatId =
      (processGroupMessage texts settings a.message a.stored a.now w'.state).2.2.learnedAliasesByChat
        a.message.chatId := by
  simp only [processGroupMessage, bootstrapGroupRuntimeState, learnGroupAliasTokens, Function.update_self, h.learned,
    h.loaded, h.last]
  exact ⟨trivial, trivial⟩

theorem SameChat.same {chatId : Int} {w w' : GroupWorld} (h : SameChat chatId w w') {e : GroupEvent}
    (he : e.concerns chatId = true) : SameChat chatId (w.exec texts settings e) (w'.exec texts settings e) := by
  cases e with
  | restart => exact SameChat.refl chatId _
  | message a =>
    obtain rfl : a.message.chatId = chatId := of_decide_eq_true he
    obtain ⟨hsignals, hlearned⟩ := h.process texts settings
    obtain ⟨m, stored, now, sent⟩ := a
    have hkind : (processGroupMessage texts settings m stored now w.state).2.1.kind =
        (processGroupMessage texts settings m stored now w'.state).2.1.kind :=
      congrArg (fun input => (evaluateGroupDecision settings.mode input settings.ruleMinScore).kind) hsignals
    have hloaded : ∀ v : GroupWorld, (processGroupMessage texts settings m stored now v.state).2.2.loadedAliasesChats
        m.chatId = true := fun v => Function.update_self _ _ _
    have hsilent : SameChat m.chatId ⟨(processGroupMessage texts settings m stored now w.state).2.2, w.responses⟩
        ⟨(processGroupMessage texts settings m stored now w'.state).2.2, w'.responses⟩ :=
      ⟨h.last, hlearned, (hloaded w).trans (hloaded w').symm, h.responses⟩
    simp only [GroupWorld.exec]
    rw [hkind]
    cases (processGroupMessage texts settings m stored now w'.state).2.1.kind with
    | respond =>
      cases sent with
      | none => exact hsilent
      | some time =>
        have hlast : ∀ state, (recordBotResponse m.chatId time state).lastBotResponseUnixByChat m.chatId = some time :=
          fun _ => Function.update_self _ _ _
        refine ⟨(hlast _).trans (hlast _).symm, hlearned, hsilent.loaded, ?_⟩
        rw [GroupWorld.responsesIn_concat, GroupWorld.responsesIn_concat, hsignals]
        exact congrArg (· ++ _) h.responses
    | observeOnly => exact hsilent
    | ignore => exact hsilent

/-- **Chats do not affect each other**: what a process has of a chat, its responses there included, is what it would
have if the messages of the other chats had never come. -/
theorem chats_apart (texts : GroupTexts) (settings : TelegramGroupTriggerSettings) (events : List GroupEvent)
    (chatId : Int) : SameChat chatId (Machine.run (GroupWorld.exec texts settings) {} events)
      (Machine.run (GroupWorld.exec texts settings) {} (events.filter (·.concerns chatId))) := by
  have hrun : ∀ (events : List GroupEvent) {w w' : GroupWorld}, SameChat chatId w w' →
      SameChat chatId (Machine.run (GroupWorld.exec texts settings) w events)
        (Machine.run (GroupWorld.exec texts settings) w' (events.filter (·.concerns chatId))) := by
    intro events
    induction events with
    | nil => exact fun h => h
    | cons e events ih =>
      intro w w' h
      cases he : e.concerns chatId
      · rw [List.filter_cons_of_neg (by rw [he]; decide), Machine.run_cons]
        cases e with
        | restart => cases he
        | message a => exact ih (h.other (of_decide_eq_false he))
      · rw [List.filter_cons_of_pos he, Machine.run_cons, Machine.run_cons]
        exact ih (h.same he)
  exact hrun events (SameChat.refl chatId {})

end Gate

end Xiaomaolv

import Xiaomaolv.Lib.Coalesce
import Xiaomaolv.Loop.Text
import Xiaomaolv.Provider.Stream

/-!
# The messages of a request

A request is sent with its neighbouring messages of one role merged; once its shape is rejected, it is sent again in
the form of a conversation of a user and an assistant.

* `normalizeMessages_eq`: normalisation coalesces the messages that are not blank.
* `Conversation`: at most 16 messages, none of them a system message or blank, their roles alternating.
* `CompatForm`: what the compatible form keeps of the messages.
* **`message_laws`**: the laws of both, for all messages.
-/

namespace Xiaomaolv

open Coalesce

variable {messages : List StoredMessage}

/-! ## Normalisation -/

/-- A message with another one of its role. -/
def StoredMessage.joined (a b : StoredMessage) : StoredMessage :=
  { a with content := a.content ++ "\n\n" ++ b.content }

theorem joins_joined : Joins StoredMessage.role StoredMessage.joined where
  key_join _ _ := rfl
  assoc a b c := by
    simp only [StoredMessage.joined, String.append_assoc]

/-- The messages that are not blank. -/
def nonblank (messages : List StoredMessage) : List StoredMessage := messages.filter fun msg => !isBlank msg.content

theorem normalizeMessages_eq (messages : List StoredMessage) :
    normalizeMessages messages = coalesce StoredMessage.role StoredMessage.joined (nonblank messages) := by
  rw [normalizeMessages, coalesce, nonblank, List.foldl_filter]
  refine congrArg (fun f => messages.foldl f []) ?_
  funext acc msg
  cases hblank : isBlank msg.content with
  | true => simp [pushMessage, hblank]
  | false =>
    cases acc using List.reverseRecOn <;> simp [pushMessage, push, StoredMessage.joined, hblank]

theorem isBlank_joined {a b : StoredMessage} (h : isBlank a.content = false) : isBlank (a.joined b).content = false := by
  rw [StoredMessage.joined, isBlank, String.toList_append, String.toList_append, List.all_append, List.all_append]
  rw [isBlank] at h
  rw [h, Bool.false_and, Bool.false_and]

theorem isBlank_normalizeMessages (messages : List StoredMessage) :
    ∀ msg ∈ normalizeMessages messages, isBlank msg.content = false := by
  rw [normalizeMessages_eq]
  refine forall_coalesce (P := fun msg : StoredMessage => isBlank msg.content = false) (fun a b ha _ => isBlank_joined ha) ?_
  intro msg hmsg
  simpa using (List.mem_filter.mp hmsg).2

theorem apart_normalizeMessages (messages : List StoredMessage) :
    Apart StoredMessage.role (normalizeMessages messages) := by
  rw [normalizeMessages_eq]
  exact isChain_coalesce joins_joined _

theorem nonblank_of_forall (h : ∀ msg ∈ messages, isBlank msg.content = false) : nonblank messages = messages := by
  rw [nonblank, List.filter_eq_self]
  intro msg hmsg
  rw [h msg hmsg]
  rfl

theorem nonblank_append (xs ys : List StoredMessage) : nonblank (xs ++ ys) = nonblank xs ++ nonblank ys :=
  List.filter_append xs ys

theorem normalizeMessages_of_apart (hapart : Apart StoredMessage.role messages)
    (hblank : ∀ msg ∈ messages, isBlank msg.content = false) : normalizeMessages messages = messages := by
  rw [normalizeMessages_eq, nonblank_of_forall hblank, coalesce_of_isChain hapart]

theorem normalizeMessages_append (xs ys : List StoredMessage) :
    normalizeMessages (xs ++ ys) = normalizeMessages (normalizeMessages xs ++ normalizeMessages ys) := by
  have hparts : nonblank (normalizeMessages xs ++ normalizeMessages ys) =
      normalizeMessages xs ++ normalizeMessages ys := by
    refine nonblank_of_forall ?_
    exact List.forall_mem_append.mpr ⟨isBlank_normalizeMessages xs, isBlank_normalizeMessages ys⟩
  rw [normalizeMessages_eq (xs ++ ys), nonblank_append, coalesce_append joins_joined,
    normalizeMessages_eq (normalizeMessages xs ++ normalizeMessages ys), hparts, normalizeMessages_eq xs,
    normalizeMessages_eq ys]

/-! ## The compatible form -/

/-- What is said in messages: those of the user and the assistant that are not blank. -/
def spoken (messages : List StoredMessage) : List StoredMessage :=
  nonblank (messages.filter fun msg => msg.role ≠ .system)

/-- The newest of what is said, with its neighbours of one role. -/
def newestRun (messages : List StoredMessage) : List StoredMessage := lastRun StoredMessage.role (spoken messages)

/-- The system guidance as a user says it. -/
def folded (messages : List StoredMessage) : String := "系统提示（兼容模式）:\n" ++ systemGuidance messages

structure Conversation (out : List StoredMessage) : Prop where
  length_le : out.length ≤ 16
  unsystem : ∀ msg ∈ out, msg.role ≠ .system
  apart : out.IsChain fun a b => a.role ≠ b.role
  nonblank : ∀ msg ∈ out, isBlank msg.content = false

/-- The compatible form of messages: a conversation that ends with the newest of what is said, and in which the system
guidance is said. -/
structure CompatForm (messages out : List StoredMessage) : Prop extends Conversation out where
  newest : ∀ newest ∈ (spoken messages).getLast?, (newestRun messages).getLast? = some newest ∧
    ∃ last ∈ out.getLast?, last.role = newest.role ∧
      let content := "\n\n".intercalate ((newestRun messages).map StoredMessage.content)
      last.content = content ∨ last.content = folded messages ++ "\n\n" ++ content
  guidance : ∀ msg ∈ messages, msg.role = .system → isBlank msg.content = false →
    ∃ said ∈ out, (trim msg.content).toList <:+: said.content.toList

/-- The newest of what is said, as it is sent. -/
def recent (messages : List StoredMessage) : List StoredMessage :=
  let filtered := normalizeMessages (messages.filter fun msg => msg.role ≠ .system)
  filtered.drop (filtered.length - compatMessageLimit)

/-- Fold the guidance into the messages. -/
def withGuidance (guidance : String) (filtered : List StoredMessage) : List StoredMessage :=
  if guidance.isEmpty then filtered
  else (foldGuidance ("系统提示（兼容模式）:\n" ++ guidance) filtered).getD
    (⟨.user, "系统提示（兼容模式）:\n" ++ guidance⟩ :: filtered)

theorem normalizeMessages_eq_nil : normalizeMessages messages = [] ↔ nonblank messages = [] := by
  rw [normalizeMessages_eq, coalesce_eq_nil]

theorem buildCompatMessages_eq (messages : List StoredMessage) :
    buildCompatMessages messages = withGuidance (systemGuidance messages) (recent messages) := by
  have hfallback : (if (recent messages).isEmpty then
      (messages.reverse.find? fun msg => msg.role = .user && !isBlank msg.content).toList else recent messages) =
      recent messages := by
    split_ifs with hempty
    · rw [List.isEmpty_iff] at hempty
      have hlength := congrArg List.length hempty
      simp only [recent, compatMessageLimit, List.length_drop, List.length_nil] at hlength
      have hnone : normalizeMessages (messages.filter fun msg => msg.role ≠ .system) = [] :=
        List.length_eq_zero_iff.mp (by omega)
      rw [normalizeMessages_eq_nil, nonblank, List.filter_eq_nil_iff] at hnone
      rw [hempty, List.find?_eq_none.mpr, Option.toList_none]
      intro msg hmsg hsaid
      simp only [Bool.and_eq_true, decide_eq_true_eq] at hsaid
      refine hnone msg (List.mem_filter.mpr ⟨List.mem_reverse.mp hmsg, ?_⟩) hsaid.2
      simp [hsaid.1]
    · rfl
  have hrecent : (normalizeMessages (messages.filter fun msg => msg.role ≠ .system)).drop
      ((normalizeMessages (messages.filter fun msg => msg.role ≠ .system)).length - compatMessageLimit) =
      recent messages := rfl
  rw [buildCompatMessages, withGuidance]
  dsimp only
  rw [hrecent, hfallback]
  cases foldGuidance ("系统提示（兼容模式）:\n" ++ systemGuidance messages) (recent messages) <;> rfl

/-! ## What is recent -/

theorem conversation_recent (messages : List StoredMessage) : Conversation (recent messages) where
  length_le := by
    simp only [recent, compatMessageLimit, List.length_drop]
    omega
  unsystem := by
    intro msg hmsg
    have hroles : ∀ m ∈ normalizeMessages (messages.filter fun msg => msg.role ≠ .system), m.role ≠ .system := by
      rw [normalizeMessages_eq]
      refine @forall_coalesce _ _ _ StoredMessage.role StoredMessage.joined (fun msg => msg.role ≠ .system)
        (fun _ _ ha _ => ha) _ ?_
      intro m hm
      simpa using (List.mem_filter.mp (List.mem_filter.mp hm).1).2
    exact hroles msg (List.mem_of_mem_drop hmsg)
  apart := List.IsChain.drop (apart_normalizeMessages (messages.filter fun msg => msg.role ≠ .system)) _
  nonblank msg hmsg := isBlank_normalizeMessages _ msg (List.mem_of_mem_drop hmsg)

theorem getLast?_recent (messages : List StoredMessage) :
    (recent messages).getLast? = joinAll StoredMessage.joined (newestRun messages) := by
  have hlast : (recent messages).getLast? =
      (normalizeMessages (messages.filter fun msg => msg.role ≠ .system)).getLast? := by
    rw [recent]
    generalize normalizeMessages (messages.filter fun msg => msg.role ≠ .system) = filtered
    cases filtered with
    | nil => rfl
    | cons msg filtered =>
      rw [List.getLast?_drop, if_neg]
      simp only [compatMessageLimit, List.length_cons]
      omega
  rw [hlast, normalizeMessages_eq, getLast?_coalesce joins_joined]
  rfl

theorem joinAll_joined (msg : StoredMessage) (run : List StoredMessage) :
    joinAll StoredMessage.joined (msg :: run) =
      some ⟨msg.role, "\n\n".intercalate ((msg :: run).map StoredMessage.content)⟩ := by
  rw [joinAll]
  induction run generalizing msg with
  | nil => rw [List.foldl_nil, List.map_singleton, String.intercalate_singleton]
  | cons next run ih =>
    rw [List.foldl_cons, ih]
    simp only [StoredMessage.joined, List.map_cons, String.intercalate_cons_cons, String.intercalate_cons_append,
      String.append_assoc]

theorem newest_recent {newest : StoredMessage} (h : (spoken messages).getLast? = some newest) :
    (recent messages).getLast? =
      some ⟨newest.role, "\n\n".intercalate ((newestRun messages).map StoredMessage.content)⟩ := by
  have hrole := key_getLast?_coalesce joins_joined (spoken messages)
  rw [getLast?_coalesce joins_joined, h, Option.map_some] at hrole
  rw [getLast?_recent]
  change (joinAll StoredMessage.joined (newestRun messages)).map _ = _ at hrole
  cases hrun : newestRun messages with
  | nil =>
    rw [hrun] at hrole
    cases hrole
  | cons msg run =>
    rw [hrun, joinAll_joined, Option.map_some] at hrole
    rw [joinAll_joined, ← Option.some.inj hrole]

/-! ## The guidance -/

theorem foldGuidance_eq_some {guidance : String} {out : List StoredMessage} :
    ∀ {messages : List StoredMessage}, foldGuidance guidance messages = some out →
      ∃ pre msg post, messages = pre ++ msg :: post ∧ msg.role = .user ∧
        out = pre ++ { msg with content := guidance ++ "\n\n" ++ msg.content } :: post
  | [], h => nomatch h
  | msg :: messages, h => by
    rw [foldGuidance] at h
    split_ifs at h with huser
    · exact ⟨[], msg, messages, rfl, huser, (Option.some.inj h).symm⟩
    · obtain ⟨rest, hrest, rfl⟩ := Option.map_eq_some_iff.mp h
      obtain ⟨pre, user, post, rfl, hrole, rfl⟩ := foldGuidance_eq_some hrest
      exact ⟨msg :: pre, user, post, rfl, hrole, rfl⟩

theorem foldGuidance_eq_none {guidance : String} :
    ∀ {messages : List StoredMessage}, foldGuidance guidance messages = none → ∀ msg ∈ messages, msg.role ≠ .user
  | [], _ => fun _ h => nomatch h
  | msg :: messages, h => by
    rw [foldGuidance] at h
    split_ifs at h with huser
    exact List.forall_mem_cons.mpr ⟨huser, foldGuidance_eq_none (Option.map_eq_none_iff.mp h)⟩

theorem Conversation.length_le_one {out : List StoredMessage} (h : Conversation out)
    (huser : ∀ msg ∈ out, msg.role ≠ .user) : out.length ≤ 1 := by
  have hassistant : ∀ msg ∈ out, msg.role = .assistant := by
    intro msg hmsg
    have hno := huser msg hmsg
    have hnot := h.unsystem msg hmsg
    cases hrole : msg.role with
    | user => exact absurd hrole hno
    | assistant => rfl
    | system => exact absurd hrole hnot
  match out, h.apart, hassistant with
  | [], _, _ => exact Nat.zero_le 1
  | [_], _, _ => exact Nat.le_refl 1
  | a :: b :: _, hapart, hroles =>
    rw [List.isChain_cons_cons] at hapart
    exact absurd ((hroles a (by simp)).trans (hroles b (by simp)).symm) hapart.1

theorem Conversation.replace {pre post : List StoredMessage} {msg : StoredMessage}
    (h : Conversation (pre ++ msg :: post)) {content : String} (hcontent : isBlank content = false) :
    Conversation (pre ++ { msg with content := content } :: post) where
  length_le := by
    have hlength := h.length_le
    simpa using hlength
  unsystem := by
    have hroles := h.unsystem
    simp only [List.forall_mem_append, List.forall_mem_cons] at hroles ⊢
    exact hroles
  apart := by
    have hapart := h.apart
    rw [← List.isChain_map StoredMessage.role (R := fun a b => a ≠ b)] at hapart ⊢
    simpa using hapart
  nonblank := by
    have hblank := h.nonblank
    simp only [List.forall_mem_append, List.forall_mem_cons] at hblank ⊢
    exact ⟨hblank.1, hcontent, hblank.2.2⟩

theorem isBlank_folded (guidance rest : String) : isBlank ("系统提示（兼容模式）:\n" ++ guidance ++ rest) = false := by
  have hletter : isBlank "系统提示（兼容模式）:\n" = false := by decide
  rw [isBlank] at hletter
  rw [isBlank, String.toList_append, String.toList_append, List.all_append, List.all_append, hletter, Bool.false_and,
    Bool.false_and]

/-- What guidance does to a conversation: nothing, or it comes before a user's content, or it is a message before the
others. -/
theorem withGuidance_cases (guidance : String) (filtered : List StoredMessage) :
    (guidance = "" ∧ withGuidance guidance filtered = filtered) ∨
      (∃ pre msg post, filtered = pre ++ msg :: post ∧ msg.role = .user ∧ withGuidance guidance filtered =
        pre ++ { msg with content := "系统提示（兼容模式）:\n" ++ guidance ++ "\n\n" ++ msg.content } :: post) ∨
      ((∀ msg ∈ filtered, msg.role ≠ .user) ∧
        withGuidance guidance filtered = ⟨.user, "系统提示（兼容模式）:\n" ++ guidance⟩ :: filtered) := by
  rw [withGuidance]
  split_ifs with hempty
  · exact Or.inl ⟨String.isEmpty_iff.mp hempty, rfl⟩
  · right
    cases hfold : foldGuidance ("系统提示（兼容模式）:\n" ++ guidance) filtered with
    | none => exact Or.inr ⟨foldGuidance_eq_none hfold, rfl⟩
    | some out =>
      obtain ⟨pre, msg, post, rfl, huser, rfl⟩ := foldGuidance_eq_some hfold
      exact Or.inl ⟨pre, msg, post, rfl, huser, rfl⟩

theorem Conversation.withGuidance {filtered : List StoredMessage} (h : Conversation filtered) (guidance : String) :
    Conversation (withGuidance guidance filtered) := by
  obtain ⟨-, heq⟩ | ⟨pre, msg, post, rfl, -, heq⟩ | ⟨huser, heq⟩ := withGuidance_cases guidance filtered
  · rwa [heq]
  · rw [heq, String.append_assoc]
    exact h.replace (isBlank_folded guidance _)
  · have hlength := h.length_le_one huser
    have hblank := isBlank_folded guidance ""
    rw [String.append_empty] at hblank
    rw [heq]
    refine ⟨?_, ?_, ?_, ?_⟩
    · rw [List.length_cons]
      omega
    · exact List.forall_mem_cons.mpr ⟨by simp, h.unsystem⟩
    · refine List.isChain_cons.mpr ⟨?_, h.apart⟩
      intro msg hmsg
      exact (huser msg (List.mem_of_mem_head? hmsg)).symm
    · exact List.forall_mem_cons.mpr ⟨hblank, h.nonblank⟩

theorem getLast?_withGuidance (guidance : String) {filtered : List StoredMessage} {last : StoredMessage}
    (h : filtered.getLast? = some last) :
    ∃ last' ∈ (withGuidance guidance filtered).getLast?, last'.role = last.role ∧ (last'.content = last.content ∨
      last'.content = "系统提示（兼容模式）:\n" ++ guidance ++ "\n\n" ++ last.content) := by
  obtain ⟨-, heq⟩ | ⟨pre, msg, post, rfl, -, heq⟩ | ⟨-, heq⟩ := withGuidance_cases guidance filtered
  · rw [heq]
    exact ⟨last, h, rfl, Or.inl rfl⟩
  · rw [heq]
    cases post using List.reverseRecOn with
    | nil =>
      rw [List.getLast?_concat] at h
      obtain rfl := Option.some.inj h
      exact ⟨_, List.getLast?_concat, rfl, Or.inr rfl⟩
    | append_singleton post final =>
      rw [← List.cons_append, ← List.append_assoc, List.getLast?_concat] at h ⊢
      exact ⟨last, h, rfl, Or.inl rfl⟩
  · rw [heq, List.getLast?_cons, h]
    exact ⟨last, rfl, rfl, Or.inl rfl⟩

theorem infix_intercalate {text : String} {texts : List String} (h : text ∈ texts) (sep : String) :
    text.toList <:+: (sep.intercalate texts).toList := by
  induction texts with
  | nil => cases h
  | cons first texts ih =>
    cases texts with
    | nil =>
      obtain rfl := List.mem_singleton.mp h
      rw [String.intercalate_singleton]
    | cons next texts =>
      rw [String.intercalate_cons_cons, String.toList_append, String.toList_append]
      rcases List.mem_cons.mp h with rfl | hrest
      · rw [List.append_assoc]
        exact (List.prefix_append _ _).isInfix
      · exact (ih hrest).trans (List.suffix_append _ _).isInfix

theorem trim_ne_empty {text : String} (h : isBlank text = false) : trim text ≠ "" := by
  intro htrim
  obtain ⟨c, hc, hletter⟩ := List.all_eq_false.mp h
  have hcount := count_trim (by simpa using hletter) text
  rw [htrim, String.toList_empty, List.count_nil] at hcount
  have hpos := List.count_pos_iff.mpr hc
  omega

theorem infix_systemGuidance {msg : StoredMessage} (hmsg : msg ∈ messages) (hrole : msg.role = .system)
    (hblank : isBlank msg.content = false) : (trim msg.content).toList <:+: (systemGuidance messages).toList := by
  have hne : (trim msg.content).isEmpty = false := by
    rw [← Bool.not_eq_true, String.isEmpty_iff]
    exact trim_ne_empty hblank
  have htext : trim msg.content ∈ ((messages.filter fun msg => msg.role = .system).map fun msg =>
      trim msg.content).filter fun content => !content.isEmpty := by
    refine List.mem_filter.mpr ⟨List.mem_map.mpr ⟨msg, ?_, rfl⟩, by rw [hne]; rfl⟩
    exact List.mem_filter.mpr ⟨hmsg, decide_eq_true hrole⟩
  exact infix_intercalate htext _

theorem said_withGuidance {guidance : String} (h : guidance ≠ "") (filtered : List StoredMessage) :
    ∃ said ∈ withGuidance guidance filtered, guidance.toList <:+: said.content.toList := by
  obtain ⟨hempty, -⟩ | ⟨pre, msg, post, rfl, -, heq⟩ | ⟨-, heq⟩ := withGuidance_cases guidance filtered
  · exact absurd hempty h
  · rw [heq]
    refine ⟨_, List.mem_append_right pre List.mem_cons_self, ?_⟩
    rw [String.toList_append, String.toList_append, String.toList_append]
    exact (List.infix_append _ _ _).trans (List.prefix_append _ _).isInfix
  · rw [heq]
    refine ⟨_, List.mem_cons_self, ?_⟩
    rw [String.toList_append]
    exact (List.suffix_append _ _).isInfix

/-! ## The laws -/

theorem compatForm_buildCompatMessages (messages : List StoredMessage) :
    CompatForm messages (buildCompatMessages messages) := by
  rw [buildCompatMessages_eq]
  refine ⟨(conversation_recent messages).withGuidance _, ?_, ?_⟩
  · intro newest hnewest
    obtain ⟨last, hlast, hrole, hcontent⟩ := getLast?_withGuidance (systemGuidance messages) (newest_recent hnewest)
    exact ⟨by rw [newestRun, getLast?_lastRun]; exact hnewest, last, hlast, hrole, hcontent⟩
  · intro msg hmsg hrole hblank
    have hpiece := infix_systemGuidance hmsg hrole hblank
    have hsome : systemGuidance messages ≠ "" := by
      intro hempty
      rw [hempty] at hpiece
      exact trim_ne_empty hblank (String.toList_eq_nil_iff.mp (List.infix_nil.mp hpiece))
    obtain ⟨said, hsaid, hguidance⟩ := said_withGuidance hsome (recent messages)
    exact ⟨said, hsaid, hpiece.trans hguidance⟩

theorem Conversation.buildCompatMessages {out : List StoredMessage} (h : Conversation out) :
    buildCompatMessages out = out := by
  have hfilter : out.filter (fun msg => msg.role ≠ .system) = out := by
    rw [List.filter_eq_self]
    intro msg hmsg
    exact decide_eq_true (h.unsystem msg hmsg)
  have hguidance : systemGuidance out = "" := by
    have hnone : out.filter (fun msg => msg.role = .system) = [] := by
      rw [List.filter_eq_nil_iff]
      intro msg hmsg
      simpa using h.unsystem msg hmsg
    rw [systemGuidance, hnone, List.map_nil, List.filter_nil, String.intercalate_nil]
  have hrecent : recent out = out := by
    have hlength := h.length_le
    rw [recent, hfilter, normalizeMessages_of_apart h.apart h.nonblank, compatMessageLimit,
      Nat.sub_eq_zero_of_le hlength, List.drop_zero]
  rw [buildCompatMessages_eq, hguidance, hrecent, Xiaomaolv.withGuidance, if_pos (String.isEmpty_iff.mpr rfl)]

/-- **The laws of normalisation and of the compatible form.** -/
theorem message_laws (xs ys messages : List StoredMessage) :
    (normalizeMessages (normalizeMessages xs) = normalizeMessages xs ∧
      (∀ msg ∈ normalizeMessages xs, isBlank msg.content = false) ∧
      (normalizeMessages xs).IsChain (fun a b => a.role ≠ b.role) ∧
      normalizeMessages (xs ++ ys) = normalizeMessages (normalizeMessages xs ++ normalizeMessages ys)) ∧
    CompatForm messages (buildCompatMessages messages) ∧
      buildCompatMessages (buildCompatMessages messages) = buildCompatMessages messages := by
  refine ⟨⟨?_, isBlank_normalizeMessages xs, apart_normalizeMessages xs, normalizeMessages_append xs ys⟩,
    compatForm_buildCompatMessages messages, ?_⟩
  · exact normalizeMessages_of_apart (apart_normalizeMessages xs) (isBlank_normalizeMessages xs)
  · exact (compatForm_buildCompatMessages messages).toConversation.buildCompatMessages

end Xiaomaolv

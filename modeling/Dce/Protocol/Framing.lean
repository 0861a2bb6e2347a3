import Dce.Protocol.Receiving

/-!
# Reading back a written frame

The head of a frame over TCP is read back as it was written. Its body comes back
with the line break that the writer puts between the separator and the body.
-/

namespace Dce.Protocol

open Router Text

/-- What a frame can carry: parts without the signs that the format sets between them. -/
structure Frameable (id path : Str) (respHeads : Heads) : Prop where
  idTrimmed : trim id = id
  idUnseparated : idPathSeparator ∉ id
  idUnbroken : '\n' ∉ id
  idFree : ¬headBodySeparator <:+: id
  pathTrimmed : trim path = path
  pathNonempty : path ≠ []
  pathUnbroken : '\n' ∉ path
  pathFree : ¬headBodySeparator <:+: path
  names (name value : Str) : respHeads[name]? = some value →
    name ≠ headIdName ∧ name ≠ headPathName ∧ ':' ∉ name ∧ '\n' ∉ name ∧
      ¬headBodySeparator <:+: name
  values (name value : Str) : respHeads[name]? = some value →
    IsLine value ∧ ¬headBodySeparator <:+: value

/-- The line of a head. -/
def lineText (head : Str × Str) : Str := head.1 ++ ':' :: head.2

/-- The lines of a frame before its separator. -/
def frameLines (order : IterOrder) (id path : Str) (respHeads : Heads) : List Str :=
  (id ++ idPathSeparator :: path) :: (order.entries respHeads).map lineText

theorem flatMap_headLine (heads : List (Str × Str)) (rest : Str) :
    heads.flatMap headLine ++ '\n' :: rest =
      '\n' :: ((heads.map lineText).flatMap (· ++ ['\n']) ++ rest) := by
  induction heads with
  | nil => rfl
  | cons head heads ih => simp [headLine, lineText, ih]

theorem headText_eq {Req Resp : Type} (order : IterOrder) {info : Router.Meta Req Resp} {id : Str}
    (identified : info.id = some id) :
    headText order info =
      (frameLines order id info.path info.respHeads).flatMap (· ++ ['\n']) ++
        headBodySeparator ++ ['\n'] := by
  have moved := flatMap_headLine (order.entries info.respHeads) (headBodySeparator ++ ['\n'])
  simp only [headText, identified, frameLines]
  simp [moved]

namespace Frameable

variable {id path : Str} {respHeads : Heads} (order : IterOrder)

theorem getElem?_of_entry {head : Str × Str} (entry : head ∈ order.entries respHeads) :
    respHeads[head.1]? = some head.2 := by
  have listed := (order.perm respHeads).mem_iff.mp entry
  exact Std.ExtTreeMap.mem_toList_iff_getElem?_eq_some.mp listed

theorem isLine_entry (frameable : Frameable id path respHeads) {head : Str × Str}
    (entry : head ∈ order.entries respHeads) : IsLine (lineText head) := by
  have stored := getElem?_of_entry order entry
  rcases frameable.names _ _ stored with ⟨_, _, _, unbroken, _⟩
  have value := (frameable.values _ _ stored).1
  constructor
  · simp [lineText, unbroken, value.unbroken]
  · rw [lineText]
    cases eq : head.2 with
    | nil => simp
    | cons c rest =>
        have bare := value.bare
        rw [eq] at bare
        simpa using bare

theorem isLine_first (frameable : Frameable id path respHeads) :
    IsLine (id ++ idPathSeparator :: path) := by
  constructor
  · simp [frameable.idUnbroken, frameable.pathUnbroken, idPathSeparator]
  · intro ending
    rcases List.eq_nil_or_concat path with empty | ⟨start, last, eq⟩
    · exact frameable.pathNonempty empty
    · rw [List.concat_eq_append] at eq
      have trimmed := frameable.pathTrimmed
      rw [eq] at trimmed ending
      have visible := last_of_trimBy trimmed
      rw [← List.cons_append, ← List.append_assoc, List.getLast?_concat] at ending
      cases ending
      exact absurd visible (by decide)

theorem isLine_of_mem (frameable : Frameable id path respHeads) {line : Str}
    (mem : line ∈ frameLines order id path respHeads) : IsLine line := by
  rcases List.mem_cons.mp mem with rfl | later
  · exact frameable.isLine_first
  · rcases List.mem_map.mp later with ⟨head, entry, rfl⟩
    exact frameable.isLine_entry order entry

theorem free_of_mem (frameable : Frameable id path respHeads) {line : Str}
    (mem : line ∈ frameLines order id path respHeads) : ¬headBodySeparator <:+: line := by
  rcases List.mem_cons.mp mem with rfl | later
  · exact not_infix_append (by decide) frameable.idFree frameable.pathFree
  · rcases List.mem_map.mp later with ⟨head, entry, rfl⟩
    have stored := getElem?_of_entry order entry
    rcases frameable.names _ _ stored with ⟨_, _, _, _, free⟩
    exact not_infix_append (by decide) free (frameable.values _ _ stored).2

/-- Only the body of a frame is trimmed. -/
theorem trim_frame (frameable : Frameable id path respHeads) (body : Str) :
    ∃ rest, trim ((frameLines order id path respHeads).flatMap (· ++ ['\n']) ++
        headBodySeparator ++ body) =
      (frameLines order id path respHeads).flatMap (· ++ ['\n']) ++ headBodySeparator ++ rest := by
  refine ⟨trimEndBy isWhitespace body, ?_⟩
  have begins : ∃ first middle, (frameLines order id path respHeads).flatMap (· ++ ['\n']) =
      first :: middle ∧ isWhitespace first = false := by
    have trimmed := frameable.idTrimmed
    cases id with
    | nil => exact ⟨';', _, rfl, by decide⟩
    | cons c id => exact ⟨c, _, rfl, head_of_trimBy trimmed⟩
  rcases begins with ⟨first, middle, eq, visible⟩
  have closing : headBodySeparator = ">BODY>>".toList ++ ['>'] := by decide
  have ends : isWhitespace '>' = false := by decide
  have cut : trimBy isWhitespace (first :: (middle ++ ">BODY>>".toList) ++ '>' :: body) = _ :=
    trimBy_append visible ends body
  rw [eq, closing]
  simpa [trim] using cut

theorem foldl_insert_of_not_mem {heads : List (Str × Str)} {name : Str}
    (absent : ∀ head ∈ heads, head.1 ≠ name) (before : Heads) :
    (heads.foldl (fun heads head => heads.insert head.1 head.2) before)[name]? = before[name]? := by
  induction heads generalizing before with
  | nil => rfl
  | cons head heads ih =>
      have other := absent head List.mem_cons_self
      rw [List.foldl_cons, ih fun head mem => absent head (List.mem_cons_of_mem _ mem)]
      simp [Std.ExtTreeMap.getElem?_insert, other]

theorem foldl_insert_of_mem {heads : List (Str × Str)} {head : Str × Str}
    (distinct : heads.Pairwise fun left right => left.1 ≠ right.1) (mem : head ∈ heads)
    (before : Heads) :
    (heads.foldl (fun heads head => heads.insert head.1 head.2) before)[head.1]? =
      some head.2 := by
  induction heads generalizing before with
  | nil => exact absurd mem List.not_mem_nil
  | cons first heads ih =>
      rcases List.pairwise_cons.mp distinct with ⟨others, distinct⟩
      rw [List.foldl_cons]
      rcases List.mem_cons.mp mem with rfl | later
      · rw [foldl_insert_of_not_mem fun other within => (others other within).symm]
        simp
      · exact ih distinct later _

theorem distinct_entries (order : IterOrder) (respHeads : Heads) :
    (order.entries respHeads).Pairwise fun left right => left.1 ≠ right.1 := by
  have distinct : respHeads.toList.Pairwise fun left right => left.1 ≠ right.1 :=
    Std.ExtTreeMap.distinct_keys_toList.imp fun apart same => apart (by simp [same])
  exact ((order.perm respHeads).pairwise_iff fun apart => Ne.symm apart).mpr distinct

theorem headOf_lineText {head : Str × Str} (free : ':' ∉ head.1) :
    headOf (lineText head) = head := by
  rw [headOf, lineText, splitOnce_append free]
  rfl

theorem foldl_headOf (frameable : Frameable id path respHeads) (before : Heads) :
    ((order.entries respHeads).map lineText).foldl
        (fun heads line => heads.insert (headOf line).1 (headOf line).2) before =
      (order.entries respHeads).foldl (fun heads head => heads.insert head.1 head.2) before := by
  rw [List.foldl_map]
  apply List.foldl_ext
  intro heads head entry
  have free := (frameable.names _ _ (getElem?_of_entry order entry)).2.2.1
  rw [headOf_lineText free]

/-- The heads of a frame, with its path and id, are those that were written. -/
theorem headsOf_frame (frameable : Frameable id path respHeads) :
    ∃ heads, headsOf (id ++ idPathSeparator :: path) ((order.entries respHeads).map lineText) =
        (heads, path) ∧
      heads.insert headPathName path =
        (respHeads.insert headIdName id).insert headPathName path := by
  refine ⟨((order.entries respHeads).map lineText).foldl
    (fun heads line => heads.insert (headOf line).1 (headOf line).2)
    ((∅ : Heads).insert headIdName id), ?_, ?_⟩
  · simp [headsOf, splitOnce_append frameable.idUnseparated]
  · rw [foldl_headOf order frameable]
    apply Std.ExtTreeMap.ext_getElem?
    intro name
    simp only [Std.ExtTreeMap.getElem?_insert]
    by_cases isPath : compare headPathName name = .eq
    · simp [isPath]
    · simp only [isPath, if_false]
      cases stored : respHeads[name]? with
      | some value =>
          have entry := (order.perm respHeads).mem_iff.mpr
            (Std.ExtTreeMap.mem_toList_iff_getElem?_eq_some.mpr stored)
          have other := (frameable.names _ _ stored).1.symm
          have read := foldl_insert_of_mem (distinct_entries order respHeads) entry
            ((∅ : Heads).insert headIdName id)
          simp [read, other]
      | none =>
          have absent : ∀ head ∈ order.entries respHeads, head.1 ≠ name := by
            rintro head entry rfl
            rw [getElem?_of_entry order entry] at stored
            cases stored
          rw [foldl_insert_of_not_mem absent, Std.ExtTreeMap.getElem?_insert]
          simp

/-- A frame's text is decoded to what was written. -/
theorem decode_frame (frameable : Frameable id path respHeads) (body : Str) :
    let before := (frameLines order id path respHeads).flatMap (· ++ ['\n'])
    decode (trim (before ++ headBodySeparator ++ body)) =
      .ok ((respHeads.insert headIdName id).insert headPathName path,
        len (before ++ headBodySeparator)) := by
  intro before
  rcases frameable.trim_frame order body with ⟨rest, trimmed⟩
  have found := find_lines (show headBodySeparator ≠ [] by decide) (by decide)
    (fun line mem => frameable.free_of_mem order mem) rest
  have split : lines before =
      (id ++ idPathSeparator :: path) :: (order.entries respHeads).map lineText :=
    lines_flatMap fun line mem => frameable.isLine_of_mem order mem
  rcases frameable.headsOf_frame order with ⟨heads, read, written⟩
  rw [trimmed, decode, found]
  simp only [before] at split
  simp only [split, read, written, before, len_append]

end Frameable

/-- A written frame is read back: the id, the path and the heads as they were, and the body after
the line break that follows the separator. -/
theorem fromBytes_into (order : IterOrder) {self : SemiTcpProtocol} {id body : Str}
    {sd : Serialized} (identified : self.info.id = some id)
    (response : self.info.resp = some (.serialized sd))
    (frameable : Frameable id self.info.path self.info.respHeads)
    (text : fromUtf8 (self.packResp sd) = some body) :
    ∃ decoded, SemiTcpProtocol.fromBytes (self.into order) = .ok decoded ∧
      decoded.info.id = some id ∧ decoded.info.path = self.info.path ∧
      decoded.info.heads =
        (self.info.respHeads.insert headIdName id).insert headPathName self.info.path ∧
      decoded.body.1 = .ok (.string ('\n' :: body)) := by
  let before := (frameLines order id self.info.path self.info.respHeads).flatMap (· ++ ['\n'])
  let frame := before ++ headBodySeparator ++ '\n' :: body
  have written : self.into order = toBytes frame := by
    have bytes := toBytes_of_fromUtf8 text
    simp only [SemiTcpProtocol.into, response, ← bytes, ← toBytes_append,
      headText_eq order identified]
    simp [frame, before]
  have read : SemiTcpProtocol.textOf (self.into order) = .ok frame := by
    rw [written, SemiTcpProtocol.textOf, fromUtf8_toBytes]
  have decoded := frameable.decode_frame order ('\n' :: body)
  refine ⟨{ info := .new (self.into order)
              ((self.info.respHeads.insert headIdName id).insert headPathName self.info.path),
            bodyIndex := len (before ++ headBodySeparator) }, ?_, ?_, ?_, rfl, ?_⟩
  · rw [SemiTcpProtocol.fromBytes, read]
    change (decode (trim frame) >>= _) = _
    rw [decoded]
    rfl
  · have apart : headPathName ≠ headIdName := by decide
    rw [Meta.id, Meta.new, Std.ExtTreeMap.getElem?_insert, if_neg (by simpa using apart)]
    exact Std.ExtTreeMap.getElem?_insert_self
  · simp [Meta.path, Meta.new]
  · have found : sliceFrom frame (len (before ++ headBodySeparator)) = some ('\n' :: body) := by
      rw [sliceFrom, cut_len]
      rfl
    change bodyOf (SemiTcpProtocol.textOf (self.into order)) _ = _
    rw [read, bodyOf, found]
    rfl

/-- A reply of a greeting, with a head. -/
def greeting : SemiTcpProtocol where
  info := {
    req := none
    resp := some (.serialized (.string "hello".toList))
    heads := ((∅ : Heads).insert headIdName ['1']).insert headPathName "greet".toList
    respHeads := (∅ : Heads).insert "Session-Id".toList "07".toList }
  bodyIndex := 0

theorem greeting_frameable : Frameable ['1'] greeting.info.path greeting.info.respHeads := by
  have only (name value : Str) (stored : greeting.info.respHeads[name]? = some value) :
      name = "Session-Id".toList ∧ value = "07".toList := by
    simp only [greeting, Std.ExtTreeMap.getElem?_insert] at stored
    split at stored
    · rename_i same
      cases stored
      exact ⟨(Std.compare_eq_iff_eq.mp same).symm, rfl⟩
    · cases stored
  constructor
  case names =>
    intro name value stored
    rcases only name value stored with ⟨rfl, rfl⟩
    decide
  case values =>
    intro name value stored
    rcases only name value stored with ⟨rfl, rfl⟩
    exact ⟨⟨by decide, by decide⟩, by decide⟩
  all_goals decide

theorem fromBytes_into_greeting :
    ∃ decoded, SemiTcpProtocol.fromBytes (greeting.into .sorted) = .ok decoded ∧
      decoded.info.id = some ['1'] ∧ decoded.info.path = greeting.info.path ∧
      decoded.info.heads =
        (greeting.info.respHeads.insert headIdName ['1']).insert headPathName greeting.info.path ∧
      decoded.body.1 = .ok (.string ('\n' :: "hello".toList)) :=
  fromBytes_into .sorted (by decide) rfl greeting_frameable (fromUtf8_toBytes _)

/-- The body does not come back as it was. -/
theorem not_fromBytes_into :
    ¬∀ (order : IterOrder) (self : SemiTcpProtocol) (id body : Str) (sd : Serialized),
      self.info.id = some id → self.info.resp = some (.serialized sd) →
      Frameable id self.info.path self.info.respHeads →
        fromUtf8 (self.packResp sd) = some body →
      ∃ decoded, SemiTcpProtocol.fromBytes (self.into order) = .ok decoded ∧
        decoded.info.id = some id ∧ decoded.info.path = self.info.path ∧
        decoded.info.heads =
          (self.info.respHeads.insert headIdName id).insert headPathName self.info.path ∧
        decoded.body.1 = .ok (.string body) := by
  intro claim
  rcases claim .sorted greeting ['1'] "hello".toList (.string "hello".toList) (by decide) rfl
    greeting_frameable (fromUtf8_toBytes _) with ⟨decoded, made, _, _, _, body⟩
  have written : greeting.into .sorted =
      toBytes "1;greet\nSession-Id:07\n>BODY>>>\nhello".toList := by
    rw [SemiTcpProtocol.into]
    change toBytes _ ++ toBytes _ = _
    rw [← toBytes_append]
    exact congrArg toBytes (by decide)
  have received : SemiTcpProtocol.receive (greeting.into .sorted) =
      .ok (.string "hello".toList) := by
    rw [SemiTcpProtocol.receive, made]
    exact body
  rw [written, SemiTcpProtocol.receive_eq, SemiTcpProtocol.textOf, fromUtf8_toBytes] at received
  have computed : receiveText (.ok "1;greet\nSession-Id:07\n>BODY>>>\nhello".toList) =
      .ok (.string "\nhello".toList) := by rfl
  have same := Outcome.ok.inj (computed.symm.trans received)
  cases same

end Dce.Protocol

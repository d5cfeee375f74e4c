import SyntaxStream.Highlight.Dispatch
import SyntaxStream.Proofs.Highlight.Cache
import SyntaxStream.Proofs.Service.Answer
import SyntaxStream.Proofs.Service.Request

namespace SyntaxStream

variable {σ : Type}

namespace Service

-- The service at the other end of a transport, with what it keeps and its parser.
def exchange [Codec] [Diagnostics] (parser : SyntaxParser σ) (library : ThemeLibrary)
    (message : Http.Request) (server : LocalHighlighter × σ) :
    Option Http.Response × LocalHighlighter × σ :=
  let (response, h, s) := handle parser library server.1 message server.2
  (some response, h, s)

-- A message that carries a request is answered by what the highlighter of the service says.
theorem handle_encode [Codec] [Codec.ReadsBack] [Diagnostics] {request : HighlightRequest}
    (ho : request.options.HasWords) (parser : SyntaxParser σ) (library : ThemeLibrary)
    (server : LocalHighlighter) (s : σ) :
    handle parser library server (Remote.encode request) s =
      (report (server.highlight parser library request s).1,
        (server.highlight parser library request s).2) := by
  have hmethod : (Remote.encode request).method ≠ .head := by
    rw [Remote.encode_eq]
    split <;> exact Http.Method.noConfusion
  exact handle_of_readRequest (readRequest_encode ho) hmethod parser library server s

theorem fetch_exchange [Codec] [Codec.ReadsBack] [Diagnostics] {request : HighlightRequest}
    (ho : request.options.HasWords) (parser : SyntaxParser σ) (library : ThemeLibrary)
    (server : LocalHighlighter) (s : σ) :
    (Remote.transport (exchange parser library)).fetch request (server, s) =
      (Remote.decode (report (server.highlight parser library request s).1),
        (server.highlight parser library request s).2) := by
  simp only [Remote.transport, exchange, handle_encode ho]

end Service

namespace DefaultHighlighter

variable {h : DefaultHighlighter} {server : LocalHighlighter} {parser : SyntaxParser σ}
  {library : ThemeLibrary} {request : HighlightRequest} {s : σ}

theorem resolve_of_tripped {τ : Type} (hb : h.breaker.remoteAvailable = false)
    (transport : Transport τ) (t : τ) :
    h.resolve parser library transport request s t =
      (LocalHighlighter.orPlain request.code
          (h.localHighlighter.highlight parser library request s).1,
        ⟨h.breaker, (h.localHighlighter.highlight parser library request s).2.1⟩,
        (h.localHighlighter.highlight parser library request s).2.2, t) := by
  have hhere := LocalHighlighter.resolve_eq parser library h.localHighlighter request s
  rw [resolve, hb]
  simp only [Bool.false_eq_true, if_false, resolveHere, hhere]

-- Asking the service gives what its highlighter says, or the plain code if that fails.
theorem resolve_of_available [Codec] [Codec.ReadsBack] [Diagnostics]
    (hb : h.breaker.remoteAvailable = true) (ho : request.options.HasWords)
    (hcode : request.code.utf8ByteSize < Json.Number.wordMax) :
    h.resolve parser library (Remote.transport (Service.exchange parser library)) request s
        (server, s) =
      (LocalHighlighter.orPlain request.code (server.highlight parser library request s).1, h, s,
        (server.highlight parser library request s).2) := by
  have hfetch := Service.fetch_exchange ho parser library server s
  have hplain : ∀ result, (server.highlight parser library request s).1 = .ok result →
      Node.ArePlain result.tree ∧ Node.heights result.tree ≤ 3 :=
    fun result hok => LocalHighlighter.arePlain_of_highlight hcode hok
  rw [resolve, hb, hfetch]
  generalize server.highlight parser library request s = answer at hplain
  obtain ⟨reason | result, kept⟩ := answer
  · simp only [if_true, Service.decode_report_error]
    rfl
  · obtain ⟨hplain, hheight⟩ := hplain result rfl
    simp only [if_true, Service.decode_report_ok hplain hheight]
    rfl

theorem highlight_of_faithful_pair (hclient : h.localHighlighter.Faithful library)
    (hserver : server.Faithful library) :
    (server.highlight parser library request s).1 =
      (h.localHighlighter.highlight parser library request s).1 := by
  rw [(LocalHighlighter.highlight_of_faithful hserver parser request s).1,
    (LocalHighlighter.highlight_of_faithful hclient parser request s).1]

-- The outcome in terms of what is highlighted here, whether or not the service is asked.
theorem outcome_through_service [Codec] [Codec.ReadsBack] [Diagnostics] (parser : SyntaxParser σ)
    (s : σ) (hclient : h.localHighlighter.Faithful library) (hserver : server.Faithful library)
    (ho : request.options.HasWords) (hcode : request.code.utf8ByteSize < Json.Number.wordMax) :
    ∃ kept after served,
      h.resolve parser library (Remote.transport (Service.exchange parser library)) request s
          (server, s) =
        (LocalHighlighter.orPlain request.code
          (h.localHighlighter.highlight parser library request s).1, ⟨h.breaker, kept⟩, after,
          served) ∧
      kept.Faithful library ∧ served.1.Faithful library := by
  cases hb : h.breaker.remoteAvailable with
  | false =>
    rw [resolve_of_tripped hb]
    have hkept := (LocalHighlighter.highlight_of_faithful hclient parser request s).2.1
    exact ⟨_, _, _, rfl, hkept, hserver⟩
  | true =>
    rw [resolve_of_available hb ho hcode, highlight_of_faithful_pair hclient hserver]
    have hkept := (LocalHighlighter.highlight_of_faithful hserver parser request s).2.1
    exact ⟨_, _, _, rfl, hclient, hkept⟩

-- Asking the service makes no difference to highlighting here, whatever the breaker says: not
-- to the result, whether there is one or not, and not to the breaker. For this the service and
-- the highlighter must have the same themes, and their parsers the same answers; and what is
-- written on either side must be read back on the other, however it is written.
theorem resolve_through_service [Codec] [Codec.ReadsBack] [Diagnostics] (h : DefaultHighlighter)
    (server : LocalHighlighter) (parser : SyntaxParser σ) (library : ThemeLibrary)
    (request : HighlightRequest) (s : σ)
    (hclient : h.localHighlighter.Faithful library) (hserver : server.Faithful library)
    (ho : request.options.HasWords) (hcode : request.code.utf8ByteSize < Json.Number.wordMax) :
    let here := h.localHighlighter.highlight parser library request s
    let answer := (Service.handle parser library server (Remote.encode request) s).1
    let resolved := h.resolve parser library
      (Remote.transport (Service.exchange parser library)) request s (server, s)
    resolved.1 = (h.localHighlighter.resolve parser library request s).1 ∧
      resolved.2.1.breaker = h.breaker ∧
      (∀ result, here.1 = .ok result → answer.status = 200 ∧ resolved.1 = result) ∧
      (∀ reason, here.1 = .error reason →
        answer.status = 500 ∧ resolved.1 = .plain request.code) ∧
      resolved.2.1.localHighlighter.Faithful library ∧ resolved.2.2.2.1.Faithful library := by
  intro here answer resolved
  have hanswer : answer = Service.report here.1 := by
    simp only [answer, here, Service.handle_encode ho, highlight_of_faithful_pair hclient hserver]
  have hhere : (h.localHighlighter.resolve parser library request s).1 =
      LocalHighlighter.orPlain request.code here.1 := by
    simp only [LocalHighlighter.resolve_eq, here]
  obtain ⟨kept, after, served, hresolved, hkept, hserved⟩ :=
    outcome_through_service parser s hclient hserver ho hcode
  have hoverall : resolved = (LocalHighlighter.orPlain request.code here.1, ⟨h.breaker, kept⟩,
    after, served) := hresolved
  clear_value here answer resolved
  subst hanswer hoverall
  refine ⟨hhere.symm, rfl, ?_, ?_, hkept, hserved⟩
  · rintro result hok
    rw [hok]
    exact ⟨rfl, rfl⟩
  · rintro reason herror
    rw [herror]
    exact ⟨rfl, rfl⟩

-- A block that the service highlights, and one whose language it does not know.
theorem resolve_through_service_rust :
    let parser := SyntaxParser.ofCaptures [⟨0, 2, 0, "keyword"⟩]
    let transport := Remote.transport (Service.exchange parser .bare)
    let server : LocalHighlighter × Unit := (.fresh, ())
    let request : HighlightRequest :=
      ⟨"fn f() \x7b\x7d\n", "rust", .single "github-dark", ⟨[1], none⟩⟩
    let unknown : HighlightRequest := ⟨"x", "cobol", .unspecified, .none⟩
    LocalHighlighter.fresh.Faithful .bare ∧
      request.options.HasWords ∧ unknown.options.HasWords ∧
      request.code.utf8ByteSize < Json.Number.wordMax ∧
      unknown.code.utf8ByteSize < Json.Number.wordMax ∧
      (fresh.resolve parser .bare transport request () server).1 =
        (LocalHighlighter.fresh.resolve parser .bare request ()).1 ∧
      (fresh.resolve parser .bare transport unknown () server).1 = .plain "x" ∧
      (fresh.resolve parser .bare transport unknown () server).2.1.breaker = .closed := by
  intro parser transport server request unknown
  have hfaithful := LocalHighlighter.faithful_fresh .bare
  have ho : request.options.HasWords := by
    intro n hm
    obtain rfl := List.mem_singleton.mp hm
    decide
  have ho' : unknown.options.HasWords := by
    intro n hm
    cases hm
  have hcode : request.code.utf8ByteSize < Json.Number.wordMax := by decide +kernel
  have hcode' : unknown.code.utf8ByteSize < Json.Number.wordMax := by decide +kernel
  have hlanguage : Language.ofName? unknown.lang = none := by decide +kernel
  have herror : (LocalHighlighter.fresh.highlight parser .bare unknown ()).1 = .error _ :=
    congrArg Prod.fst (LocalHighlighter.highlight_of_unknown hlanguage parser ())
  obtain ⟨hresult, -⟩ := resolve_through_service fresh .fresh parser .bare request () hfaithful
    hfaithful ho hcode
  obtain ⟨-, hbreaker, -, hfails, -⟩ := resolve_through_service fresh .fresh parser .bare unknown ()
    hfaithful hfaithful ho' hcode'
  exact ⟨hfaithful, ho, ho', hcode, hcode', hresult, (hfails _ herror).2, hbreaker⟩

end DefaultHighlighter

end SyntaxStream

import AsrServe.Inference.Worker

/-!
# Decorated calls (`with_agent_hints` in `agentic-factory/src/agent_hints.py`)

The headers a decorated call is made with, as the transcription endpoint reads them.
-/

open AsrServe.Reasoning AsrServe.AgenticFactory

namespace AsrServe.Inference

end AsrServe.Inference

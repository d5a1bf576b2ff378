import Mathlib.Data.List.Infix

namespace GpuSharing.WeightSharing

inductive WeightSharingMode
  | off
  | primary
  | secondary
  deriving DecidableEq, Repr

structure WeightSharingConfig where
  mode : WeightSharingMode
  shareEmbedding : Bool
  shareLmHead : Bool
  shareNorm : Bool
  shareVisionEncoder : Bool
  shareProjector : Bool
  sharePooler : Bool
  deriving DecidableEq, Repr

def shareableParamPrefixes : List String :=
  ["model.layers.", "transformer.h.", "transformer.blocks.", "transformer.layers.",
    "gpt_neox.layers.", "decoder.layers.", "language_model.model.layers.", "encoder.layer.",
    "model.encoder.layer.", "roberta.encoder.layer."]

def embeddingParamPrefixes : List String :=
  ["model.embed_tokens.", "transformer.wte.", "transformer.word_embeddings.",
    "gpt_neox.embed_in.", "language_model.embed_tokens.", "language_model.model.embed_tokens.",
    "embeddings.", "model.embeddings.", "roberta.embeddings."]

def embeddingParamNames : List String :=
  ["transformer.wte.weight", "transformer.word_embeddings.weight", "gpt_neox.embed_in.weight",
    "embed_in.weight", "language_model.embed_tokens.weight"]

def lmHeadParamPrefixes : List String := ["lm_head.", "language_model.lm_head.", "embed_out."]

def lmHeadParamNames : List String := ["embed_out.weight"]

def normParamPrefixes : List String :=
  ["model.norm.", "transformer.ln_f.", "gpt_neox.final_layer_norm."]

def normParamNames : List String :=
  ["transformer.ln_f.weight", "transformer.ln_f.bias", "gpt_neox.final_layer_norm.weight",
    "gpt_neox.final_layer_norm.bias"]

def visionEncoderParamPrefixes : List String :=
  ["model.vision_", "visual.", "vision_model.", "vision_tower.", "image_encoder."]

def projectorParamPrefixes : List String :=
  ["model.mm_projector", "mm_projector.", "multi_modal_projector."]

def poolerParamPrefixes : List String :=
  ["pooler.", "model.pooler.", "roberta.pooler.", "score.", "classifier."]

def nonShareableSuffixes : List String := [".q_scale", ".k_scale", ".v_scale", ".prob_scale"]

def hasPrefix (paramName : String) (prefixes : List String) : Bool :=
  prefixes.any fun p => p.toList.isPrefixOf paramName.toList

/-- One of the texts occurs in the name. -/
def hasToken (paramName : String) (tokens : List String) : Bool :=
  tokens.any fun t => paramName.toList.tails.any t.toList.isPrefixOf

def isEmbeddingParameter (paramName : String) : Bool :=
  embeddingParamNames.contains paramName || hasPrefix paramName embeddingParamPrefixes ||
    hasToken paramName ["word_embeddings"]

def isLmHeadParameter (paramName : String) : Bool :=
  lmHeadParamNames.contains paramName || hasPrefix paramName lmHeadParamPrefixes

def isNormParameter (paramName : String) : Bool :=
  normParamNames.contains paramName || hasPrefix paramName normParamPrefixes ||
    hasToken paramName ["embeddings.LayerNorm"]

def isVisionEncoderParameter (paramName : String) : Bool :=
  hasPrefix paramName visionEncoderParamPrefixes ||
    hasToken paramName ["vision", "visual", "image_encoder", "vision_model", "vision_tower"]

def isProjectorParameter (paramName : String) : Bool :=
  hasPrefix paramName projectorParamPrefixes ||
    hasToken paramName ["projector", "connector", "mm_projector", "multi_modal_projector"]

def isPoolerParameter (paramName : String) : Bool := hasPrefix paramName poolerParamPrefixes

/-- The first class that a name belongs to decides. -/
def isShareableParameter (paramName : String) (cfg : WeightSharingConfig) : Bool :=
  if nonShareableSuffixes.any fun t => t.toList.isSuffixOf paramName.toList then false
  else if isEmbeddingParameter paramName then cfg.shareEmbedding
  else if isLmHeadParameter paramName then cfg.shareLmHead
  else if isNormParameter paramName then cfg.shareNorm
  else if isVisionEncoderParameter paramName then cfg.shareVisionEncoder
  else if isProjectorParameter paramName then cfg.shareProjector
  else if isPoolerParameter paramName then cfg.sharePooler
  else hasPrefix paramName shareableParamPrefixes

def filterShareableParamNames (paramNames : List String) (cfg : WeightSharingConfig) :
    List String :=
  paramNames.filter fun name => isShareableParameter name cfg

end GpuSharing.WeightSharing

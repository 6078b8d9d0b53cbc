import NodeFormula.Catalog.Basic

/-!
# Aliases for shader trees

A table like that for geometry trees.
-/

namespace NodeFormula.Catalog

def targets : Choice := named "target" ["all", "cycles", "eevee"]

def interpolations : Choice :=
  plain "interpolation" [("closest", "Closest"), ("cubic", "Cubic"), ("linear", "Linear"),
    ("smart", "Smart")]

def shaderAliasesAddToWorld : List (List (String × NodeRecipe)) :=
  [[("add_shader", whole "AddShader" 2 1),
    ("ambient_occlusion", whole "AmbientOcclusion" 3 2)],
   wholly "anisotropic_bsdf" "BsdfAnisotropic" 6 1 [plain "distribution" [("ashikhmin_shirley", ""),
      ("beckmann", ""), ("ggx", ""), ("multiscatter_ggx", "MULTI_GGX")]],
   [("aov_output", whole "OutputAOV" 2 0)],
   wholly "attribute" "Attribute" 0 4 [named "attribute_type" ["geometry", "instancer", "object",
      "view_layer"]],
   [("background", whole "Background" 2 1),
    ("bevel", whole "Bevel" 2 1),
    ("blackbody", whole "Blackbody" 1 1),
    ("bright_contrast", whole "BrightContrast" 3 1),
    ("bump", whole "Bump" 4 1),
    ("camera_data", whole "CameraData" 0 3),
    ("color_attribute", whole "VertexColor" 0 2)],
   wholly "combine_color" "CombineColor" 3 1 [colorModes],
   [("curves_info", whole "HairInfo" 0 6),
    ("diffuse_bsdf", whole "BsdfDiffuse" 3 1)],
   wholly "displacement" "Displacement" 4 1 [plain "space" [("object_space", "OBJECT"),
      ("world_space", "WORLD")]],
   [("emission", whole "Emission" 2 1)],
   wholly "environment_texture" "TexEnvironment" 1 1 [named "projection" ["equirectangular",
      "mirror_ball"], interpolations],
   [("fresnel", whole "Fresnel" 2 1),
    ("gamma", whole "Gamma" 2 1),
    ("geometry", whole "NewGeometry" 0 9)],
   wholly "glass_bsdf" "BsdfGlass" 4 1 [plain "distribution" [("beckmann", ""), ("ggx", ""),
      ("multiscatter_ggx", "MULTI_GGX"), ("sharp", "")]],
   wholly "glossy_bsdf" "BsdfGlossy" 3 1 [plain "distribution" [("ashikhmin_shirley", ""),
      ("beckmann", ""), ("ggx", ""), ("multiscatter_ggx", "MULTI_GGX"), ("sharp", "")]],
   wholly "hair_bsdf" "BsdfHair" 5 1 [plain "component" [("reflection", "Reflection"),
      ("transmission", "Transmission")]],
   [("holdout", whole "Holdout" 0 1),
    ("hue_saturation_value", whole "HueSaturation" 5 1)],
   wholly "ies_texture" "TexIES" 2 1 [named "mode" ["external", "internal"]],
   wholly "image_texture" "TexImage" 1 2 [named "projection" ["box", "flat", "sphere", "tube"],
      interpolations, extensions],
   [("invert", whole "Invert" 2 1),
    ("layer_weight", whole "LayerWeight" 2 2),
    ("light_falloff", whole "LightFalloff" 2 3)],
   wholly "light_output" "OutputLight" 1 0 [targets],
   [("light_path", whole "LightPath" 0 13)],
   wholly "line_style_output" "OutputLineStyle" 4 0 [targets, blendTypes],
   varied "mapping" "Mapping" (whole · 4 1) [([0, 2, 3], [0], [adding "vector_type" [("normal", "",
      []), ("point", "", [1]), ("texture", "", [1]), ("vector", "", [])]])],
   wholly "material_output" "OutputMaterial" 3 0 [targets],
   [("mix_shader", whole "MixShader" 3 1),
    ("normal", whole "Normal" 1 2)],
   wholly "normal_map" "NormalMap" 2 1 [plain "space" [("blender_object_space", "BLENDER_OBJECT"),
      ("blender_world_space", "BLENDER_WORLD"), ("object_space", "OBJECT"), ("tangent_space",
      "TANGENT"), ("world_space", "WORLD")]],
   [("object_info", whole "ObjectInfo" 0 6),
    ("particle_info", whole "ParticleInfo" 0 8)],
   wholly "point_density" "TexPointDensity" 1 2 [plain "point_source" [("object_vertices",
      "OBJECT"), ("particle_system", "")], plain "space" [("object_space", "OBJECT"),
      ("world_space", "WORLD")], plain "interpolation" [("closest_particle", "Closest"),
      ("cubic_particle", "Cubic"), ("linear_particle", "Linear")], plain "particle_color_source"
      [("age_vertex", "PARTICLE_AGE"), ("speed_vertex", "PARTICLE_SPEED"), ("velocity_vertex",
      "PARTICLE_VELOCITY")], plain "vertex_color_source" [("color", "VERTEX_COLOR"), ("normal",
      "VERTEX_NORMAL"), ("weight", "VERTEX_WEIGHT")]],
   [("point_info", whole "PointInfo" 0 3)],
   varied "principled_bsdf" "BsdfPrincipled" (whole · 25 1) [([0, 1, 2, 3, 6, 7, 8, 9, 10, 11, 12,
      13, 14, 15, 16, 17, 19, 20, 21, 22, 23, 24], [0], [adding "distribution" [("ggx", "", [18]),
      ("multiscatter_ggx", "MULTI_GGX", [])], adding "subsurface_method" [("christensen_burley",
      "BURLEY", []), ("random_walk", "", [4, 5]), ("random_walk_fixed_radius", "", [4, 5])]])],
   varied "principled_hair_bsdf" "BsdfHairPrincipled" (recipe · [0, 5, 6, 7, 8, 9, 11, 12] [0] [])
      [([5, 6, 7, 8, 9, 11, 12], [0], [adding "parametrization" [("absorption_coefficient",
      "ABSORPTION", [4]), ("direct_coloring", "COLOR", [0]), ("melanin_concentration", "MELANIN",
      [1, 2, 3, 10])]])],
   [("principled_volume", whole "VolumePrincipled" 12 1)],
   wholly "refraction_bsdf" "BsdfRefraction" 4 1 [named "distribution" ["beckmann", "ggx",
      "sharp"]],
   [("rgb", whole "RGB" 0 1),
    ("rgb_to_bw", whole "RGBToBW" 1 1)],
   wholly "script" "Script" 0 0 [named "mode" ["external", "internal"]],
   wholly "separate_color" "SeparateColor" 1 3 [colorModes],
   [("shader_to_rgb", whole "ShaderToRGB" 1 2)],
   wholly "sky_texture" "TexSky" 0 1 [adding "sky_type" [("hosek___wilkie", "HOSEK_WILKIE", [0]),
      ("nishita", "", []), ("preetham", "", [0])]],
   [("specular_bsdf", whole "EeveeSpecular" 10 1)],
   varied "subsurface_scattering" "SubsurfaceScattering" (whole · 6 1) [([0, 1, 2, 5], [0],
      [adding "falloff" [("christensen_burley", "BURLEY", []), ("random_walk", "", [3, 4]),
      ("random_walk_fixed_radius", "", [3, 4])]])],
   wholly "tangent" "Tangent" 0 1 [named "direction_type" ["radial", "uv_map"], named "axis" ["x",
      "y", "z"]],
   [("texture_coordinate", whole "TexCoord" 0 7)],
   wholly "toon_bsdf" "BsdfToon" 4 1 [named "component" ["diffuse", "glossy"]],
   [("translucent_bsdf", whole "BsdfTranslucent" 2 1),
    ("transparent_bsdf", whole "BsdfTransparent" 1 1),
    ("uv_along_stroke", whole "UVAlongStroke" 0 1),
    ("uv_map", whole "UVMap" 0 1)],
   wholly "vector_displacement" "VectorDisplacement" 3 1 [plain "space" [("object_space", "OBJECT"),
      ("tangent_space", "TANGENT"), ("world_space", "WORLD")]],
   wholly "vector_transform" "VectorTransform" 1 1 [named "vector_type" ["normal", "point",
      "vector"], named "convert_from" ["camera", "object", "world"], named "convert_to" ["camera",
      "object", "world"]],
   [("velvet_bsdf", whole "BsdfVelvet" 3 1),
    ("volume_absorption", whole "VolumeAbsorption" 2 1),
    ("volume_info", whole "VolumeInfo" 0 4),
    ("volume_scatter", whole "VolumeScatter" 3 1),
    ("wavelength", whole "Wavelength" 1 1),
    ("wireframe", whole "Wireframe" 1 1)],
   wholly "world_output" "OutputWorld" 2 0 [targets]]

def shaderAliases : List (String × NodeRecipe) := ofShader shaderAliasesAddToWorld

end NodeFormula.Catalog

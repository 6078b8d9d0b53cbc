import NodeFormula.Catalog.Basic

/-!
# Sockets of the shader nodes

Every node with its input and output sockets, by name and data type.
-/

namespace NodeFormula.Catalog

def shaderShapesAddToShader : List (String × NodeShape) := stemmed "ShaderNode"
  [("AddShader", [shader "shader", shader "shader"], [shader "shader"]),
   ("AmbientOcclusion", [color, float "distance", vec3 "normal"], [color, float "ao"]),
   ("Attribute", [], [color, vec3 "vector", float "fac", float "alpha"]),
   ("Background", [color, float "strength", float "weight"], [shader "background"]),
   ("Bevel", [float "radius", vec3 "normal"], [vec3 "normal"]),
   ("Blackbody", [float "temperature"], [color]),
   ("BrightContrast", [color, float "bright", float "contrast"], [color]),
   ("BsdfAnisotropic", [color, float "roughness", float "anisotropy", float "rotation",
      vec3 "normal", vec3 "tangent", float "weight"], [shader "bsdf"]),
   ("BsdfDiffuse", [color, float "roughness", vec3 "normal", float "weight"], [shader "bsdf"]),
   ("BsdfGlass", [color, float "roughness", float "ior", vec3 "normal", float "weight"],
      [shader "bsdf"]),
   ("BsdfGlossy", [color, float "roughness", vec3 "normal", float "weight"], [shader "bsdf"]),
   ("BsdfHair", [color, float "offset", float "roughnessu", float "roughnessv", vec3 "tangent",
      float "weight"], [shader "bsdf"]),
   ("BsdfHairPrincipled", [color, float "melanin", float "melanin_redness", rgba "tint",
      vec3 "absorption_coefficient", float "roughness", float "radial_roughness", float "coat",
      float "ior", float "offset", float "random_color", float "random_roughness", float "random",
      float "weight"], [shader "bsdf"]),
   ("BsdfPrincipled", [rgba "base_color", float "subsurface", vec3 "subsurface_radius",
      rgba "subsurface_color", float "subsurface_ior", float "subsurface_anisotropy",
      float "metallic", float "specular", float "specular_tint", float "roughness",
      float "anisotropic", float "anisotropic_rotation", float "sheen", float "sheen_tint",
      float "clearcoat", float "clearcoat_roughness", float "ior", float "transmission",
      float "transmission_roughness", rgba "emission", float "emission_strength", float "alpha",
      vec3 "normal", vec3 "clearcoat_normal", vec3 "tangent", float "weight"], [shader "bsdf"]),
   ("BsdfRefraction", [color, float "roughness", float "ior", vec3 "normal", float "weight"],
      [shader "bsdf"]),
   ("BsdfToon", [color, float "size", float "smooth", vec3 "normal", float "weight"],
      [shader "bsdf"]),
   ("BsdfTranslucent", [color, vec3 "normal", float "weight"], [shader "bsdf"]),
   ("BsdfTransparent", [color, float "weight"], [shader "bsdf"]),
   ("BsdfVelvet", [color, float "sigma", vec3 "normal", float "weight"], [shader "bsdf"]),
   ("Bump", [float "strength", float "distance", float "height", vec3 "normal"], [vec3 "normal"]),
   ("CameraData", [], [vec3 "view_vector", float "view_z_depth", float "view_distance"]),
   ("Clamp", [float "value", float "min", float "max"], [float "result"]),
   ("CombineColor", [float "red", float "green", float "blue"], [color]),
   ("CombineXYZ", [float "x", float "y", float "z"], [vec3 "vector"]),
   ("Displacement", [float "height", float "midlevel", float "scale", vec3 "normal"],
      [vec3 "displacement"]),
   ("EeveeSpecular", [rgba "base_color", rgba "specular", float "roughness", rgba "emissive_color",
      float "transparency", vec3 "normal", float "clear_coat", float "clear_coat_roughness",
      vec3 "clear_coat_normal", float "ambient_occlusion", float "weight"], [shader "bsdf"]),
   ("Emission", [color, float "strength", float "weight"], [shader "emission"]),
   ("FloatCurve", [float "factor", float "value"], [float "value"]),
   ("Fresnel", [float "ior", vec3 "normal"], [float "fac"]),
   ("Gamma", [color, float "gamma"], [color]),
   ("HairInfo", [], [float "is_strand", float "intercept", float "length", float "thickness",
      vec3 "tangent_normal", float "random"]),
   ("Holdout", [float "weight"], [shader "holdout"]),
   ("HueSaturation", [float "hue", float "saturation", float "value", float "fac", color], [color]),
   ("Invert", [float "fac", color], [color]),
   ("LayerWeight", [float "blend", vec3 "normal"], [float "fresnel", float "facing"]),
   ("LightFalloff", [float "strength", float "smooth"], [float "quadratic", float "linear",
      float "constant"]),
   ("LightPath", [], [float "is_camera_ray", float "is_shadow_ray", float "is_diffuse_ray",
      float "is_glossy_ray", float "is_singular_ray", float "is_reflection_ray",
      float "is_transmission_ray", float "ray_length", float "ray_depth", float "diffuse_depth",
      float "glossy_depth", float "transparent_depth", float "transmission_depth"]),
   ("MapRange", [float "value", float "from_min", float "from_max", float "to_min", float "to_max",
      float "steps", vec3 "vector", vec3 "from_min", vec3 "from_max", vec3 "to_min", vec3 "to_max",
      vec3 "steps"], [float "result", vec3 "vector"]),
   ("Mapping", [vec3 "vector", vec3 "location", vec3 "rotation", vec3 "scale"], [vec3 "vector"]),
   ("Math", [float "value", float "value", float "value"], [float "value"]),
   ("Mix", [float "factor", vec3 "factor", float "a", float "b", vec3 "a", vec3 "b", rgba "a",
      rgba "b"], [float "result", vec3 "result", rgba "result"]),
   ("MixShader", [float "fac", shader "shader", shader "shader"], [shader "shader"]),
   ("NewGeometry", [], [vec3 "position", vec3 "normal", vec3 "tangent", vec3 "true_normal",
      vec3 "incoming", vec3 "parametric", float "backfacing", float "pointiness",
      float "random_per_island"]),
   ("Normal", [vec3 "normal"], [vec3 "normal", float "dot"]),
   ("NormalMap", [float "strength", color], [vec3 "normal"]),
   ("ObjectInfo", [], [vec3 "location", color, float "alpha", float "object_index",
      float "material_index", float "random"]),
   ("OutputAOV", [color, float "value"], []),
   ("OutputLight", [shader "surface"], []),
   ("OutputLineStyle", [color, float "color_fac", float "alpha", float "alpha_fac"], []),
   ("OutputMaterial", [shader "surface", shader "volume", vec3 "displacement", float "thickness"],
      []),
   ("OutputWorld", [shader "surface", shader "volume"], []),
   ("ParticleInfo", [], [float "index", float "random", float "age", float "lifetime",
      vec3 "location", float "size", vec3 "velocity", vec3 "angular_velocity"]),
   ("PointInfo", [], [vec3 "position", float "radius", float "random"]),
   ("RGB", [], [color]),
   ("RGBCurve", [float "fac", color], [color]),
   ("RGBToBW", [color], [float "val"]),
   ("Script", [], []),
   ("SeparateColor", [color], [float "red", float "green", float "blue"]),
   ("SeparateXYZ", [vec3 "vector"], [float "x", float "y", float "z"]),
   ("ShaderToRGB", [shader "shader"], [color, float "alpha"])]

def shaderShapesSubsurfaceToWireframe : List (String × NodeShape) := stemmed "ShaderNode"
  [("SubsurfaceScattering", [color, float "scale", vec3 "radius", float "ior", float "anisotropy",
      vec3 "normal", float "weight"], [shader "bssrdf"]),
   ("Tangent", [], [vec3 "tangent"]),
   ("TexBrick", [vec3 "vector", rgba "color1", rgba "color2", rgba "mortar", float "scale",
      float "mortar_size", float "mortar_smooth", float "bias", float "brick_width",
      float "row_height"], [color, float "fac"]),
   ("TexChecker", [vec3 "vector", rgba "color1", rgba "color2", float "scale"], [color,
      float "fac"]),
   ("TexCoord", [], [vec3 "generated", vec3 "normal", vec3 "uv", vec3 "object", vec3 "camera",
      vec3 "window", vec3 "reflection"]),
   ("TexEnvironment", [vec3 "vector"], [color]),
   ("TexGradient", [vec3 "vector"], [color, float "fac"]),
   ("TexIES", [vec3 "vector", float "strength"], [float "fac"]),
   ("TexImage", [vec3 "vector"], [color, float "alpha"]),
   ("TexMagic", [vec3 "vector", float "scale", float "distortion"], [color, float "fac"]),
   ("TexMusgrave", [vec3 "vector", float "w", float "scale", float "detail", float "dimension",
      float "lacunarity", float "offset", float "gain"], [float "fac"]),
   ("TexNoise", [vec3 "vector", float "w", float "scale", float "detail", float "roughness",
      float "distortion"], [float "fac", color]),
   ("TexPointDensity", [vec3 "vector"], [color, float "density"]),
   ("TexSky", [vec3 "vector"], [color]),
   ("TexVoronoi", [vec3 "vector", float "w", float "scale", float "smoothness", float "exponent",
      float "randomness"], [float "distance", color, vec3 "position", float "w", float "radius"]),
   ("TexWave", [vec3 "vector", float "scale", float "distortion", float "detail",
      float "detail_scale", float "detail_roughness", float "phase_offset"], [color, float "fac"]),
   ("TexWhiteNoise", [vec3 "vector", float "w"], [float "value", color]),
   ("UVAlongStroke", [], [vec3 "uv"]),
   ("UVMap", [], [vec3 "uv"]),
   ("ValToRGB", [float "fac"], [color, float "alpha"]),
   ("Value", [], [float "value"]),
   ("VectorCurve", [float "fac", vec3 "vector"], [vec3 "vector"]),
   ("VectorDisplacement", [rgba "vector", float "midlevel", float "scale"], [vec3 "displacement"]),
   ("VectorMath", [vec3 "vector", vec3 "vector", vec3 "vector", float "scale"], [vec3 "vector",
      float "value"]),
   ("VectorRotate", [vec3 "vector", vec3 "center", vec3 "axis", float "angle", vec3 "rotation"],
      [vec3 "vector"]),
   ("VectorTransform", [vec3 "vector"], [vec3 "vector"]),
   ("VertexColor", [], [color, float "alpha"]),
   ("VolumeAbsorption", [color, float "density", float "weight"], [shader "volume"]),
   ("VolumeInfo", [], [color, float "density", float "flame", float "temperature"]),
   ("VolumePrincipled", [color, string "color_attribute", float "density",
      string "density_attribute", float "anisotropy", rgba "absorption_color",
      float "emission_strength", rgba "emission_color", float "blackbody_intensity",
      rgba "blackbody_tint", float "temperature", string "temperature_attribute", float "weight"],
      [shader "volume"]),
   ("VolumeScatter", [color, float "density", float "anisotropy", float "weight"],
      [shader "volume"]),
   ("Wavelength", [float "wavelength"], [color]),
   ("Wireframe", [float "size"], [float "fac"])]

def shaderShapes : List (String × NodeShape) :=
  shaderShapesAddToShader ++ shaderShapesSubsurfaceToWireframe

end NodeFormula.Catalog
